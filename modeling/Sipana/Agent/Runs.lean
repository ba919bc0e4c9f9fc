import Sipana.Agent.Effect

/-!
# Runs of the handler

The inversion lemma lifted to runs: the table invariant holds in every
reachable state (`wf_run`), a session that has left the table never comes back
(`getSession_of_process`), what reaches the sender is read off the state before
the step (`mem_sent_iff`), and facts about live sessions are proved by
induction on the messages they absorbed (`live_induction`).
-/

namespace Sipana

namespace SIPHandler

variable {σ : SIPHandler}

/-! ## The table after one call -/

theorem wf_new : Wf new := by
  constructor <;> intro c r h <;> simp [new, getSession] at h

theorem wf_absorbed (hwf : Wf σ) {m : SIPMessage} {r : SessionRef}
    (hs : σ.getSession m.callID = some r) (hclose : m.closes = false) :
    Wf (σ.modify r (·.absorb m)) := by
  constructor <;> intro c r' h <;> rw [getSession_modify] at h
  · by_cases hr : r' = r
    · subst hr
      simpa using hwf.keyed c r' h
    · rw [heap_modify_ne σ hr]
      exact hwf.keyed c r' h
  · exact hwf.allocated c r' h
  · by_cases hr : r' = r
    · subst hr
      rw [heap_modify_self]
      exact SIPSession.absorb_isOpen (hwf.isOpen c r' h) hclose
    · rw [heap_modify_ne σ hr]
      exact hwf.isOpen c r' h

theorem wf_opened (hwf : Wf σ) (q : SIPRequest) : Wf (σ.openSession q) := by
  have hcases : ∀ c r, (σ.openSession q).getSession c = some r →
      (c = q.callID ∧ r = σ.next) ∨
        (σ.getSession c = some r ∧ (σ.openSession q).heap r = σ.heap r) := by
    intro c r h
    by_cases hc : c = q.callID
    · subst hc
      rw [getSession_openSession_self, Option.some.injEq] at h
      exact Or.inl ⟨rfl, h.symm⟩
    · rw [getSession_openSession_ne σ q hc] at h
      have hne : r ≠ σ.next := Nat.ne_of_lt (hwf.allocated c r h)
      exact Or.inr ⟨h, heap_openSession_ne σ q hne⟩
  constructor <;> intro c r h
  · rcases hcases c r h with ⟨rfl, rfl⟩ | ⟨hold, hheap⟩
    · rw [heap_openSession_self]
      rfl
    · rw [hheap]
      exact hwf.keyed c r hold
  · rw [openSession_next]
    rcases hcases c r h with ⟨rfl, rfl⟩ | ⟨hold, -⟩
    · exact Nat.lt_succ_self _
    · exact Nat.lt_succ_of_lt (hwf.allocated c r hold)
  · rcases hcases c r h with ⟨rfl, rfl⟩ | ⟨hold, hheap⟩
    · rw [heap_openSession_self]
      exact SIPSession.isOpen_ofRequest q
    · rw [hheap]
      exact hwf.isOpen c r hold

/-- The table after a session is closed: its own entry is gone. -/
theorem getSession_closed (hwf : Wf σ) {m : SIPMessage} {r : SessionRef}
    (hs : σ.getSession m.callID = some r) (c : String) :
    ((σ.modify r (·.absorb m)).finish r).getSession c =
      if c = m.callID then none else σ.getSession c := by
  have hkey : ((σ.modify r (·.absorb m)).heap r).callId = m.callID := by
    simpa using hwf.keyed _ _ hs
  by_cases hc : c = m.callID
  · rw [if_pos hc, hc, ← hkey]
    exact getSession_finish_self _ r
  · rw [if_neg hc, getSession_finish_ne _ r (hkey ▸ hc), getSession_modify]

/-- A session that is closed is in no entry of the table. -/
theorem getSession_closed_ne (hwf : Wf σ) {m : SIPMessage} {r : SessionRef}
    (hs : σ.getSession m.callID = some r) (c : String) :
    ((σ.modify r (·.absorb m)).finish r).getSession c ≠ some r := by
  intro hc
  rw [getSession_closed hwf hs] at hc
  split at hc
  · cases hc
  · rename_i hne
    exact hne (hwf.injective hc hs)

/-- The other sessions are untouched when one is closed. -/
theorem heap_closed_of_live (hwf : Wf σ) {m : SIPMessage} {r r' : SessionRef}
    {c : String} (hs : σ.getSession m.callID = some r)
    (hc : c ≠ m.callID) (hs' : σ.getSession c = some r') :
    (σ.modify r (·.absorb m)).heap r' = σ.heap r' := by
  refine heap_modify_ne σ ?_ _
  intro heq
  subst heq
  exact hc (hwf.injective hs' hs)

theorem wf_closed (hwf : Wf σ) {m : SIPMessage} {r : SessionRef}
    (hs : σ.getSession m.callID = some r) :
    Wf ((σ.modify r (·.absorb m)).finish r) := by
  have hcases : ∀ c r', ((σ.modify r (·.absorb m)).finish r).getSession c =
      some r' → σ.getSession c = some r' ∧
        ((σ.modify r (·.absorb m)).finish r).heap r' = σ.heap r' := by
    intro c r' h
    rw [getSession_closed hwf hs] at h
    split at h
    · cases h
    · rename_i hc
      exact ⟨h, heap_closed_of_live hwf hs hc h⟩
  constructor <;> intro c r' h <;> obtain ⟨hold, hheap⟩ := hcases c r' h
  · rw [hheap]
    exact hwf.keyed c r' hold
  · exact hwf.allocated c r' hold
  · rw [hheap]
    exact hwf.isOpen c r' hold

theorem wf_process (hwf : Wf σ) (call : Call) : Wf (σ.process call) := by
  have heff := process_effect hwf call
  generalize call.message = m, σ.process call = τ at heff ⊢
  cases heff with
  | ignored => exact hwf
  | standalone => exact ⟨hwf.keyed, hwf.allocated, hwf.isOpen⟩
  | opened => exact wf_opened hwf _
  | absorbed hs _ hclose => exact wf_absorbed hwf hs hclose
  | closed hs => exact wf_closed hwf hs

/-- The table invariant holds in every reachable state. -/
theorem wf_run (calls : List Call) : Wf (run calls) :=
  machine.run_invariant wf_new (fun _ call h => wf_process h call) calls

theorem run_snoc (calls : List Call) (call : Call) :
    run (calls ++ [call]) = (run calls).process call :=
  machine.run_snoc calls call

/-! ## Lifetimes -/

theorem next_le_process (hwf : Wf σ) (call : Call) :
    σ.next ≤ (σ.process call).next := by
  have heff := process_effect hwf call
  generalize call.message = m, σ.process call = τ at heff ⊢
  cases heff <;> simp [send]

/-- A call only puts fresh objects into the table. -/
theorem getSession_of_process (hwf : Wf σ) {call : Call} {c : String}
    {r : SessionRef} (hr : r < σ.next)
    (h : (σ.process call).getSession c = some r) :
    σ.getSession c = some r := by
  have heff := process_effect hwf call
  generalize call.message = m, σ.process call = τ at heff h
  cases heff with
  | ignored => exact h
  | standalone => exact h
  | @opened q _ =>
    by_cases hc : c = q.callID
    · subst hc
      rw [getSession_openSession_self, Option.some.injEq] at h
      exact absurd h (Nat.ne_of_gt hr)
    · rwa [getSession_openSession_ne σ q hc] at h
  | absorbed => exact h
  | closed hs =>
    rw [getSession_closed hwf hs] at h
    split at h
    · cases h
    · exact h

/-- A session that is live at the end of an execution was live all along, and
what it went through is absorbing messages of its call. -/
theorem exec_absorbs (hwf : Wf σ) {c : String} {r : SessionRef}
    (hr : r < σ.next) {P : SIPSession → Prop}
    (keep : ∀ s m, P s → s.IsOpen → m.callID = c → m.closes = false →
      P (s.absorb m))
    (calls : List Call) (h : (machine.exec σ calls).getSession c = some r) :
    σ.getSession c = some r ∧
      (P (σ.heap r) → P ((machine.exec σ calls).heap r)) := by
  induction calls generalizing σ with
  | nil => exact ⟨h, id⟩
  | cons call calls ih =>
    obtain ⟨hmid, hP⟩ := ih (wf_process hwf call)
      (Nat.lt_of_lt_of_le hr (next_le_process hwf call)) h
    have hlive := getSession_of_process hwf hr hmid
    refine ⟨hlive, fun hp => hP ?_⟩
    have heff := process_effect hwf call
    generalize call.message = m, σ.process call = τ at heff hmid ⊢
    cases heff with
    | ignored => exact hp
    | standalone => exact hp
    | opened =>
      rw [heap_openSession_ne σ _ (Nat.ne_of_lt hr)]
      exact hp
    | @absorbed _ r' hs _ hclose =>
      by_cases hrr : r = r'
      · subst hrr
        rw [heap_modify_self]
        exact keep _ _ hp (hwf.isOpen _ _ hlive) (hwf.injective hs hlive) hclose
      · rw [heap_modify_ne σ hrr]
        exact hp
    | closed hs =>
      rw [getSession_closed hwf hs] at hmid
      split at hmid
      · cases hmid
      · rename_i hc
        rw [finish_heap, heap_closed_of_live hwf hs hc hlive]
        exact hp

/-! ## What reaches the sender -/

/-- What a call with message `m` hands to the sender. -/
def handOver (σ : SIPHandler) (m : SIPMessage) : List Sent :=
  match σ.getSession m.callID with
  | some r => if m.closes then [.session r ((σ.heap r).absorb m)] else []
  | none =>
    match m with
    | .request _ => []
    | .response p => [.message (.response p)]

/-- What a response hands over when it finds no session. -/
theorem handOver_late {p : SIPResponse} (hs : σ.getSession p.callID = none) :
    σ.handOver (.response p) = [.message (.response p)] := by
  unfold handOver
  rw [show σ.getSession (SIPMessage.response p).callID = none from hs]

theorem process_sent (hwf : Wf σ) (call : Call) :
    (σ.process call).sent = σ.sent ++ σ.handOver call.message := by
  have heff := process_effect hwf call
  generalize call.message = m, σ.process call = τ at heff ⊢
  cases heff with
  | ignored hs => simp [handOver, hs]
  | standalone hs => simp [handOver, hs, send]
  | @opened q _ =>
    rw [openSession_sent, handOver]
    cases σ.getSession (SIPMessage.request q).callID <;>
      simp [SIPMessage.closes]
  | absorbed hs _ hclose => simp [handOver, hs, hclose]
  | closed hs hclose => simp [handOver, hs, hclose]

/-- Whatever is in the log was handed over by one call of the run. -/
theorem mem_sent_iff (calls : List Call) (x : Sent) :
    x ∈ (run calls).sent ↔
      ∃ pre call post, calls = pre ++ call :: post ∧
        x ∈ (run pre).handOver call.message :=
  machine.mem_log_iff sent (fun σ call => σ.handOver call.message) rfl
    (fun as a => process_sent (wf_run as) a) calls x

theorem session_mem_handOver {r : SessionRef} {s : SIPSession}
    {m : SIPMessage} :
    .session r s ∈ σ.handOver m ↔
      σ.getSession m.callID = some r ∧ m.closes = true ∧
        s = (σ.heap r).absorb m := by
  unfold handOver
  cases hs : σ.getSession m.callID with
  | none => cases m <;> simp
  | some r' =>
    cases hclose : m.closes with
    | false => simp
    | true =>
      simp only [if_true, List.mem_singleton, Sent.session.injEq,
        Option.some.injEq, true_and]
      refine ⟨?_, ?_⟩
      · intro h
        obtain ⟨rfl, rfl⟩ := h
        exact ⟨rfl, rfl⟩
      · intro h
        obtain ⟨rfl, rfl⟩ := h
        exact ⟨rfl, rfl⟩

theorem mem_sentSessions {r : SessionRef} {s : SIPSession} :
    (r, s) ∈ σ.sentSessions ↔ .session r s ∈ σ.sent := by
  rw [sentSessions, List.mem_filterMap]
  refine ⟨?_, ?_⟩
  · intro hmem
    obtain ⟨x, hx, h⟩ := hmem
    cases x with
    | session r' s' =>
      simp only [Option.some.injEq, Prod.mk.injEq] at h
      rwa [← h.1, ← h.2]
    | message m => simp at h
  · intro h
    exact ⟨_, h, rfl⟩

/-- All emitted sessions are checked by evaluation. -/
theorem all_sentSessions {P : SIPSession → Prop} [DecidablePred P] :
    σ.sentSessions.all (P ·.2) = true ↔ ∀ r s, .session r s ∈ σ.sent → P s := by
  simp only [List.all_eq_true, decide_eq_true_eq, Prod.forall,
    mem_sentSessions]

/-- A property of all emitted sessions is a property of what the closing
responses make of the live ones. -/
theorem forall_sent_iff (calls : List Call) (P : SIPSession → Prop) :
    (∀ r s, .session r s ∈ (run calls).sent → P s) ↔
      machine.Along (fun σ call => ∀ p r, call.message = .response p →
        σ.getSession p.callID = some r → p.kind.closes = true →
        P ((σ.heap r).absorb (.response p))) calls := by
  refine ⟨?_, ?_⟩
  · intro h pre call post heq p r hp hs hclose
    refine h r _ ((mem_sent_iff calls _).mpr ⟨pre, call, post, heq, ?_⟩)
    rw [hp]
    exact session_mem_handOver.mpr ⟨hs, hclose, rfl⟩
  · intro h r s hmem
    obtain ⟨pre, call, post, heq, hin⟩ := (mem_sent_iff calls _).mp hmem
    obtain ⟨hs, hclose, rfl⟩ := session_mem_handOver.mp hin
    cases hm : call.message with
    | request q => simp [hm, SIPMessage.closes] at hclose
    | response p =>
      rw [hm] at hs hclose
      exact h pre call post heq p r hm hs hclose

/-! ## Induction over live sessions -/

/-- A fact about live sessions holds when it holds of a session just opened, is
kept when the session absorbs a message of its call, and does not depend on the
messages of other calls. -/
theorem live_induction (P : List Call → SessionRef → SIPSession → Prop)
    (opened : ∀ calls call q, call.message = .request q →
      q.kind = .other ∨ q.kind = .invite →
      run (calls ++ [call]) = (run calls).openSession q →
      P (calls ++ [call]) (run calls).next (SIPSession.ofRequest q))
    (absorbed : ∀ calls call r s, P calls r s → s.IsOpen →
      call.message.callID = s.callId → call.message.closes = false →
      call.message.reopens = false →
      P (calls ++ [call]) r (s.absorb call.message))
    (other : ∀ calls call r s, P calls r s →
      call.message.callID ≠ s.callId → P (calls ++ [call]) r s)
    (calls : List Call) (c : String) (r : SessionRef)
    (h : (run calls).getSession c = some r) :
    P calls r ((run calls).heap r) := by
  induction calls using List.reverseRecOn generalizing c r with
  | nil => exact absurd h (by simp [run, Machine.run, machine, new, getSession])
  | append_singleton calls call ih =>
    have hwf := wf_run calls
    obtain ⟨m, hm⟩ : ∃ m, call.message = m := ⟨_, rfl⟩
    have hother : ∀ c r, (run calls).getSession c = some r → c ≠ m.callID →
        P (calls ++ [call]) r ((run calls).heap r) := by
      intro c r hs hc
      apply other calls call r _ (ih c r hs)
      rw [hwf.keyed c r hs, hm]
      exact hc.symm
    have heff := process_effect hwf call
    rw [hm, ← run_snoc] at heff
    generalize hτ : run (calls ++ [call]) = τ at heff h ⊢
    cases heff with
    | ignored hs =>
      apply hother c r h
      intro heq
      subst heq
      exact absurd (hs.symm.trans h) (by simp)
    | standalone hs =>
      rw [getSession_send] at h
      apply hother c r h
      intro heq
      subst heq
      exact absurd (hs.symm.trans h) (by simp)
    | @opened q hq =>
      by_cases hc : c = q.callID
      · subst hc
        rw [getSession_openSession_self, Option.some.injEq] at h
        subst h
        rw [heap_openSession_self]
        exact opened calls call q hm (hq.imp_right And.left) hτ
      · rw [getSession_openSession_ne _ _ hc] at h
        rw [heap_openSession_ne _ _ (Nat.ne_of_lt (hwf.allocated c r h))]
        exact hother c r h hc
    | @absorbed _ r' hs hre hclose =>
      rw [getSession_modify] at h
      by_cases hr : r = r'
      · subst hr
        rw [heap_modify_self, ← hm]
        subst hm
        exact absorbed calls call r _ (ih c r h) (hwf.isOpen c r h)
          (hwf.keyed _ r hs).symm hclose hre
      · rw [heap_modify_ne _ hr]
        apply hother c r h
        intro heq
        subst heq
        rw [hs, Option.some.injEq] at h
        exact hr h.symm
    | closed hs =>
      rw [getSession_closed hwf hs] at h
      split at h
      · cases h
      · rename_i hc
        rw [finish_heap, heap_closed_of_live hwf hs hc h]
        exact hother c r h hc

end SIPHandler

end Sipana
