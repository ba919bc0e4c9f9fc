import Sipana.Agent.Runs

/-!
# The order of the milestones

Messages carry positive capture times that never decrease along a run. A live
session then has its milestones in order (`Ordered`): this is what its state
guards are for. The response that closes a session is the one place where a
milestone is overwritten without looking at the state the session had:
`processFailureResponse` tests for ESTABLISHED after having written FAILED, and
the last branch of `processSucessfulResponse` does not test at all.
-/

namespace Sipana

/-- Those of the times that are set are in order. -/
def Ascending (ts : List Int) : Prop := (ts.filter (· ≠ 0)).Pairwise (· ≤ ·)

instance (ts : List Int) : Decidable (Ascending ts) :=
  inferInstanceAs (Decidable (List.Pairwise _ _))

/-- The milestones of an emitted session are in order. -/
def TimestampOrder (s : SIPSession) : Prop :=
  Ascending [s.startTime, s.firstResponseTime, s.setupTime, s.endTime] ∧
    (s.establishedTime ≠ 0 →
      Ascending [s.setupTime, s.establishedTime, s.disconnectionStart,
        s.endTime])

instance (s : SIPSession) : Decidable (TimestampOrder s) :=
  inferInstanceAs (Decidable (_ ∧ _))

/-- The response `p` closes the session and moves the setup time past the time
at which the session was established. -/
def OverwritesSetup (s : SIPSession) (p : SIPResponse) : Prop :=
  s.establishedTime ≠ 0 ∧ s.establishedTime < p.time ∧ p.SetsUp

/-! ## Live sessions -/

/-- What the state guards keep true of a session that is live at time `t`. -/
structure Ordered (t : Int) (s : SIPSession) : Prop where
  start : 0 < s.startTime ∧ s.startTime ≤ t
  first : s.firstResponseTime ≠ 0 →
    s.startTime ≤ s.firstResponseTime ∧ s.firstResponseTime ≤ t
  setup : s.setupTime ≠ 0 → s.firstResponseTime ≠ 0 ∧
    s.firstResponseTime ≤ s.setupTime ∧ s.setupTime ≤ t
  established : s.establishedTime ≠ 0 → s.setupTime ≠ 0 ∧
    s.setupTime ≤ s.establishedTime ∧ s.establishedTime ≤ t
  disconnection : s.disconnectionStart ≠ 0 →
    s.startTime ≤ s.disconnectionStart ∧ s.disconnectionStart ≤ t ∧
      (s.establishedTime ≠ 0 → s.establishedTime ≤ s.disconnectionStart)
  initiated : s.state = .initiated →
    s.setupTime = 0 ∧ s.establishedTime = 0 ∧ s.disconnectionStart = 0
  provisioned : s.state = .provisioned →
    s.setupTime ≠ 0 ∧ s.establishedTime = 0 ∧ s.disconnectionStart = 0

namespace Ordered

variable {t u : Int} {s : SIPSession}

theorem mono (h : Ordered t s) (htu : t ≤ u) : Ordered u s where
  start := ⟨h.start.1, Int.le_trans h.start.2 htu⟩
  first hne := (h.first hne).imp_right (Int.le_trans · htu)
  setup hne := (h.setup hne).imp_right (.imp_right (Int.le_trans · htu))
  established hne :=
    (h.established hne).imp_right (.imp_right (Int.le_trans · htu))
  disconnection hne :=
    (h.disconnection hne).imp_right (.imp_left (Int.le_trans · htu))
  initiated := h.initiated
  provisioned := h.provisioned

theorem ofRequest {q : SIPRequest} (h : 0 < q.time) :
    Ordered q.time (SIPSession.ofRequest q) := by
  constructor <;> simp [SIPSession.ofRequest, h]

theorem addMessage (h : Ordered t s) (m : SIPMessage) :
    Ordered t (s.addMessage m) :=
  ⟨h.start, h.first, h.setup, h.established, h.disconnection, h.initiated,
    h.provisioned⟩

theorem noteResponse (h : Ordered t s) (ht : 0 < t) :
    Ordered t (s.noteResponse t) ∧
      (s.noteResponse t).firstResponseTime ≠ 0 := by
  unfold SIPSession.noteResponse
  split
  · rename_i hfirst
    refine ⟨⟨h.start, fun _ => ⟨h.start.2, Int.le_refl t⟩, fun hne => ?_,
      h.established, h.disconnection, h.initiated, h.provisioned⟩,
      Int.ne_of_gt ht⟩
    -- no setup time without a first response
    exact absurd hfirst (h.setup hne).1
  · exact ⟨h, ‹_›⟩

/-- A response that leaves the session open keeps the order. -/
theorem settle (h : Ordered t s) (ht : 0 < t) (hfirst : s.firstResponseTime ≠ 0)
    {k : ResponseKind} (hk : k.closes = false) : Ordered t (s.settle k t) := by
  have hle := (h.first hfirst).2
  cases k with
  | ringing =>
    unfold SIPSession.settle
    simp only
    split
    · rename_i hstate
      obtain ⟨-, hest, hdisc⟩ := h.initiated hstate
      constructor <;> simp_all [h.start, h.first hfirst, Int.ne_of_gt ht]
    · exact h
  | inviteOK =>
    unfold SIPSession.settle
    simp only
    split
    · rename_i hstate
      obtain ⟨-, -, hdisc⟩ := h.initiated hstate
      constructor <;> simp_all [h.start, h.first hfirst, Int.ne_of_gt ht]
    · rename_i hstate
      obtain ⟨hsetup, -, hdisc⟩ := h.provisioned hstate
      have hsu := h.setup hsetup
      constructor <;> simp_all [h.start, h.first hfirst]
    · exact h
  | passive => exact h
  | cancelOK | byeOK | otherOK | failure => simp [ResponseKind.closes] at hk

/-- A live session keeps its milestones in order. -/
theorem absorb {m : SIPMessage} (h : Ordered m.time s) (ht : 0 < m.time)
    (hclose : m.closes = false) : Ordered m.time (s.absorb m) := by
  cases m with
  | request q =>
    by_cases hkind : q.kind = .disconnect
    · rw [s.absorb_disconnect hkind]
      have hest := fun hne => (h.established hne).2.2
      exact ⟨h.start, h.first, h.setup, h.established,
        fun _ => ⟨h.start.2, Int.le_refl _, hest⟩, by simp, by simp⟩
    · rw [s.absorb_request hkind]
      exact h.addMessage _
  | response p =>
    obtain ⟨hnote, hfirst⟩ := (h.addMessage (.response p)).noteResponse ht
    rw [s.absorb_response]
    exact hnote.settle ht hfirst hclose

end Ordered

/-! ## Closing a session -/

theorem ascending_iff (a b c d : Int) :
    Ascending [a, b, c, d] ↔
      (a ≠ 0 → (b ≠ 0 → a ≤ b) ∧ (c ≠ 0 → a ≤ c) ∧ (d ≠ 0 → a ≤ d)) ∧
      (b ≠ 0 → (c ≠ 0 → b ≤ c) ∧ (d ≠ 0 → b ≤ d)) ∧
      (c ≠ 0 → d ≠ 0 → c ≤ d) := by
  simp only [Ascending, List.pairwise_filter, List.pairwise_cons,
    List.mem_cons, List.not_mem_nil, or_false, forall_eq_or_imp, forall_eq,
    decide_eq_true_eq, List.Pairwise.nil, false_implies, implies_true, and_true]
  grind

namespace Ordered

variable {t : Int} {s : SIPSession}

/-- The order survives the end of the session. -/
theorem timestampOrder_end (h : Ordered t s) (state : SIPSessionState) :
    TimestampOrder { s with endTime := t, state := state } := by
  obtain ⟨hstart, hfirst, hsetup, hest, hdisc, -, -⟩ := h
  simp only [TimestampOrder, ascending_iff]
  omega

/-- The order survives a setup time written at the end exactly when the session
was not established before. -/
theorem timestampOrder_setup_end (h : Ordered t s) (ht : 0 < t)
    (state : SIPSessionState) :
    TimestampOrder { s with setupTime := t, endTime := t, state := state } ↔
      ¬ (s.establishedTime ≠ 0 ∧ s.establishedTime < t) := by
  obtain ⟨hstart, hfirst, hsetup, hest, hdisc, -, -⟩ := h
  simp only [TimestampOrder, ascending_iff]
  omega

theorem timestampOrder_settle (h : Ordered t s) (ht : 0 < t)
    {k : ResponseKind} (hk : k.closes = true) :
    TimestampOrder (s.settle k t) ↔
      ¬ (s.establishedTime ≠ 0 ∧ s.establishedTime < t ∧
        (k = .otherOK ∨ k = .failure)) := by
  cases k with
  | ringing | inviteOK | passive => simp [ResponseKind.closes] at hk
  | cancelOK =>
    have hend := h.timestampOrder_end .canceled
    simpa [SIPSession.settle] using hend
  | byeOK =>
    have hend := h.timestampOrder_end .completed
    simpa [SIPSession.settle] using hend
  | otherOK =>
    have hend := h.timestampOrder_setup_end ht .completed
    simpa [SIPSession.settle] using hend
  | failure =>
    have hend := h.timestampOrder_setup_end ht .failed
    simpa [SIPSession.settle] using hend

theorem timestampOrder_absorb {p : SIPResponse} (h : Ordered p.time s)
    (ht : 0 < p.time) (hclose : p.kind.closes = true) :
    TimestampOrder (s.absorb (.response p)) ↔ ¬ OverwritesSetup s p := by
  obtain ⟨hnote, -⟩ := (h.addMessage (.response p)).noteResponse ht
  rw [s.absorb_response, hnote.timestampOrder_settle ht hclose,
    SIPResponse.kind_setsUp]
  have hest : ((s.addMessage (.response p)).noteResponse p.time).establishedTime
      = s.establishedTime := by
    unfold SIPSession.noteResponse
    split <;> rfl
  rw [hest]
  rfl

end Ordered

/-! ## Runs -/

namespace SIPHandler

/-- Positive capture times that never decrease. -/
def Timed (calls : List Call) : Prop :=
  (∀ call ∈ calls, 0 < call.message.time) ∧
    (calls.map fun call => call.message.time).Pairwise (· ≤ ·)

instance (calls : List Call) : Decidable (Timed calls) :=
  inferInstanceAs (Decidable (_ ∧ _))

theorem Timed.of_append {pre post : List Call} (h : Timed (pre ++ post)) :
    Timed pre := by
  refine ⟨fun call hcall => h.1 call (List.mem_append_left _ hcall), ?_⟩
  have hpair := h.2
  rw [List.map_append, List.pairwise_append] at hpair
  exact hpair.1

/-- What comes later in a timed run is positive and not earlier. -/
theorem Timed.next {pre post : List Call} {call : Call}
    (h : Timed (pre ++ call :: post)) :
    0 < call.message.time ∧
      ∀ a ∈ pre, a.message.time ≤ call.message.time := by
  refine ⟨h.1 call (by simp), fun a ha => ?_⟩
  have hpair := h.2
  rw [List.map_append, List.pairwise_append] at hpair
  exact hpair.2.2 _ (List.mem_map_of_mem ha) _ (by simp)

/-- In a timed run every live session has its milestones in order. -/
theorem ordered_of_live {calls : List Call} (h : Timed calls) {t : Int}
    (ht : ∀ call ∈ calls, call.message.time ≤ t) {c : String} {r : SessionRef}
    (hs : (run calls).getSession c = some r) :
    Ordered t ((run calls).heap r) := by
  refine live_induction (fun calls _ s => Timed calls → ∀ t,
    (∀ call ∈ calls, call.message.time ≤ t) → Ordered t s)
    ?_ ?_ ?_ calls c r hs h t ht
  · intro calls call q hq _ _ htimed t hle
    have hnow := hle call (by simp)
    rw [hq] at hnow
    refine (Ordered.ofRequest ?_).mono hnow
    have := htimed.next.1
    rwa [hq] at this
  · intro calls call r s ih _ _ hclose _ htimed t hle
    have hbefore := ih htimed.of_append _ htimed.next.2
    exact (hbefore.absorb htimed.next.1 hclose).mono (hle call (by simp))
  · intro calls call r s ih _ htimed t hle
    exact ih htimed.of_append t fun a ha => hle a (by simp [ha])

/-- A property of the emitted sessions of a timed run is decided where they are
closed, by a session with its milestones in order and the closing response. -/
theorem forall_sent_timed_iff {calls : List Call} (h : Timed calls)
    {P : SIPSession → Prop} {D : SIPSession → SIPResponse → Prop}
    (decides : ∀ s p, Ordered p.time s → 0 < p.time → p.kind.closes = true →
      (P (s.absorb (.response p)) ↔ D s p)) :
    (∀ r s, .session r s ∈ (run calls).sent → P s) ↔
      machine.Along (fun σ call => ∀ p r, call.message = .response p →
        σ.getSession p.callID = some r → p.kind.closes = true →
        D (σ.heap r) p) calls := by
  rw [forall_sent_iff]
  apply machine.along_congr
  intro pre call post heq
  rw [heq] at h
  obtain ⟨hpos, hle⟩ := h.next
  refine forall_congr' fun p => forall_congr' fun r => forall_congr' fun hp =>
    forall_congr' fun hs => forall_congr' fun hclose => ?_
  rw [hp] at hpos hle
  exact decides _ p (ordered_of_live h.of_append hle hs) hpos hclose

/-- The sessions of a timed run are emitted with their milestones in order
exactly when none was closed by a response that overwrites its setup time. -/
theorem timestamp_order_iff (calls : List Call) (h : Timed calls) :
    (∀ r s, .session r s ∈ (run calls).sent → TimestampOrder s) ↔
      machine.Along (fun σ call => ∀ p r, call.message = .response p →
        σ.getSession p.callID = some r → ¬ OverwritesSetup (σ.heap r) p)
        calls := by
  rw [forall_sent_timed_iff h fun s p hord hpos hclose =>
    hord.timestampOrder_absorb hpos hclose]
  apply machine.along_congr
  intro pre call post _
  refine forall_congr' fun p => forall_congr' fun r => forall_congr' fun _ =>
    forall_congr' fun _ => ?_
  refine ⟨?_, ?_⟩
  · intro hkeep hover
    exact hkeep hover.2.2.closes hover
  · intro hkeep _
    exact hkeep

/-- A call that is hung up: nothing is overwritten. -/
theorem timestamp_order_hung_up :
    (run [.request "INVITE" "a" 1, .response 180 "INVITE" "a" 2,
      .response 200 "INVITE" "a" 3, .request "BYE" "a" 4,
      .response 200 "BYE" "a" 5]).sentSessions.all
        (TimestampOrder ·.2) = true := by
  apply all_sentSessions.mpr
  apply (timestamp_order_iff _ (by decide)).mpr
  intro pre call post heq p r hp _ hover
  have hmem : call ∈ pre ++ call :: post := by simp
  simp only [← heq, List.mem_cons, List.not_mem_nil, or_false] at hmem
  rcases hmem with rfl | rfl | rfl | rfl | rfl <;> cases hp <;>
    exact absurd hover.2.2 (by decide)

/-- A re-INVITE that is refused: the call was set up before it was
established, and is emitted as set up afterwards. -/
theorem refused_reinvite_disorders :
    ¬ ∀ calls, Timed calls →
      ∀ r s, .session r s ∈ (run calls).sent → TimestampOrder s := by
  intro h
  have hlog : (run [.request "INVITE" "a" 1, .response 200 "INVITE" "a" 2,
      .request "ACK" "a" 3, .request "INVITE" "a" 4,
      .response 488 "INVITE" "a" 5]).sentSessions.all
        (TimestampOrder ·.2) = true :=
    all_sentSessions.mpr (h _ (by decide))
  exact absurd hlog (by decide)

end SIPHandler

end Sipana
