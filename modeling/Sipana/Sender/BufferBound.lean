import Sipana.Sender.JMSSender

/-!
# The bound of the buffer

`buffer.size` is meant to limit what the sender keeps in memory during an
outage. Three ways lead into the buffer. `send(SIPSession)` tests the limit
before it adds, and with `>`, so it still adds to a buffer that is full.
`send(SIPMessage)`, and with it `send(List)`, does not test at all.
-/

namespace Sipana

namespace JMSSender

variable {S M : Type} {σ : JMSSender S M}

/-- The number of objects in the buffer. -/
def buffered (σ : JMSSender S M) : Nat := σ.sessions.length + σ.messages.length

/-- What may happen to a sender in delayed mode. -/
inductive BufferAction (S M : Type)
  | send (call : JMSResult × Serializable S M)
  | sendList (messages : List (JMSResult × M))
  | setState (state : SenderState)
  /-- A step of a delayed sender. -/
  | drain (self : DelayedSender S) (result : JMSResult)
deriving DecidableEq, Repr

/-- The sender as a machine that starts in delayed mode with an empty buffer. -/
def bufferMachine [DecidableEq S] (bufferSize : Int) :
    Machine (JMSSender S M) (BufferAction S M) where
  init := { isDelayed := true, bufferSize }
  step σ
    | .send call => σ.send call
    | .sendList messages => (σ.sendMessages messages).1
    | .setState state => { σ with state := state }
    | .drain self result => (self.step result σ).1

/-- The buffer is within its limit. -/
def Bounded (σ : JMSSender S M) : Prop := (σ.buffered : Int) ≤ σ.bufferSize

instance (σ : JMSSender S M) : Decidable (Bounded σ) :=
  inferInstanceAs (Decidable (_ ≤ _))

/-- What the call stores, if anything, fits into the buffer. -/
def HasRoom (σ : JMSSender S M) : BufferAction S M → Prop
  | .send (_, .session _) => (σ.buffered : Int) < σ.bufferSize
  | .send (_, .message _) =>
    σ.isRunning = true ∨ (σ.buffered : Int) < σ.bufferSize
  | .sendList messages =>
    σ.isRunning = true ∨
      (σ.buffered : Int) + messages.length ≤ σ.bufferSize
  | .setState _ | .drain _ _ => True

instance (σ : JMSSender S M) (a : BufferAction S M) :
    Decidable (HasRoom σ a) := by
  unfold HasRoom
  split <;> infer_instance

/-! ## What a call adds -/

theorem sendNow_buffered (result : JMSResult) (σ : JMSSender S M)
    (object : Option (Serializable S M)) :
    (σ.sendNow result object).1.buffered = σ.buffered := by
  obtain ⟨sent, hsent⟩ := σ.sendNow_frame result object
  rw [hsent]
  rfl

/-- A bounded buffer takes one more session. -/
theorem sendSession_buffered (hdelayed : σ.isDelayed = true) (h : Bounded σ)
    (result : JMSResult) (session : S) :
    (σ.sendSession result session).1.buffered = σ.buffered + 1 := by
  have hover : ¬ σ.isBufferOverflowed = true := by
    rw [isBufferOverflowed, decide_eq_true_eq]
    exact Int.not_lt.mpr h
  unfold sendSession
  rw [if_pos hdelayed, if_pos hover]
  simp only [buffered, List.length_append, List.length_singleton]
  omega

/-- A message is stored when the sender is not running. -/
theorem sendMessage_buffered (hdelayed : σ.isDelayed = true)
    (result : JMSResult) (message : M) :
    (σ.sendMessage result message).1.buffered =
      if σ.isRunning = true then σ.buffered else σ.buffered + 1 := by
  unfold sendMessage
  by_cases hrun : σ.isRunning = true
  · rw [if_pos hrun, if_pos hrun]
    exact sendNow_buffered result σ _
  · rw [if_neg hrun, if_pos hdelayed, if_neg hrun]
    simp only [buffered, List.length_append, List.length_singleton]
    omega

/-- What a call of `send(SIPMessage)` leaves alone. -/
theorem sendMessage_frame (result : JMSResult) (message : M) :
    (σ.sendMessage result message).1.isDelayed = σ.isDelayed ∧
      (σ.sendMessage result message).1.bufferSize = σ.bufferSize ∧
      (σ.sendMessage result message).1.state = σ.state := by
  unfold sendMessage
  split
  · obtain ⟨sent, hsent⟩ := σ.sendNow_frame result (some (.message message))
    rw [hsent]
    exact ⟨rfl, rfl, rfl⟩
  · split <;> exact ⟨rfl, rfl, rfl⟩

/-- A message that is stored does not end the loop of `send(List)`. -/
theorem sendMessage_stores (hdelayed : σ.isDelayed = true)
    (hrun : ¬ σ.isRunning = true) (result : JMSResult) (message : M) :
    σ.sendMessage result message =
      ({ σ with messages := σ.messages ++ [message] }, .returns) := by
  unfold sendMessage
  rw [if_neg hrun, if_pos hdelayed]

theorem sendMessages_frame (messages : List (JMSResult × M)) :
    (σ.sendMessages messages).1.isDelayed = σ.isDelayed ∧
      (σ.sendMessages messages).1.bufferSize = σ.bufferSize := by
  induction messages generalizing σ with
  | nil => exact ⟨rfl, rfl⟩
  | cons call messages ih =>
    obtain ⟨result, message⟩ := call
    have hframe := σ.sendMessage_frame result message
    unfold sendMessages
    split <;> rename_i heq <;> rw [heq] at hframe
    · exact ⟨ih.1.trans hframe.1, ih.2.trans hframe.2.1⟩
    · exact ⟨hframe.1, hframe.2.1⟩

/-- A running sender stores none of the messages, any other all of them. -/
theorem sendMessages_buffered (hdelayed : σ.isDelayed = true)
    (messages : List (JMSResult × M)) :
    (σ.sendMessages messages).1.buffered =
      if σ.isRunning = true then σ.buffered
      else σ.buffered + messages.length := by
  induction messages generalizing σ with
  | nil => simp [sendMessages]
  | cons call messages ih =>
    obtain ⟨result, message⟩ := call
    have hstored := σ.sendMessage_buffered hdelayed result message
    have hframe := σ.sendMessage_frame result message
    by_cases hrun : σ.isRunning = true
    · rw [if_pos hrun] at hstored ⊢
      unfold sendMessages
      split <;> rename_i σ' heq <;> rw [heq] at hframe hstored
      · have hrun' : σ'.isRunning = true := by
          rw [isRunning, hframe.2.2]
          exact hrun
        rw [ih (hframe.1.trans hdelayed), if_pos hrun', hstored]
      · exact hstored
    · rw [if_neg hrun] at hstored ⊢
      unfold sendMessages
      rw [sendMessage_stores hdelayed hrun]
      let stored := { σ with messages := σ.messages ++ [message] }
      have hidle : ¬ stored.isRunning = true := hrun
      have hrest := (ih (σ := stored) hdelayed).trans (if_neg hidle)
      show (stored.sendMessages messages).1.buffered = _
      rw [hrest]
      simp only [stored, buffered, List.length_append, List.length_cons,
        List.length_nil]
      omega

/-! ## Every step of the buffer -/

/-- What never changes once the sender has been configured. -/
structure Configured (bufferSize : Int) (σ : JMSSender S M) : Prop where
  isDelayed : σ.isDelayed = true
  bufferSize : σ.bufferSize = bufferSize

theorem sendSession_configured {bufferSize : Int} (h : Configured bufferSize σ)
    (result : JMSResult) (session : S) :
    Configured bufferSize (σ.sendSession result session).1 := by
  unfold sendSession
  rw [if_pos h.isDelayed]
  split <;> exact ⟨h.isDelayed, h.bufferSize⟩

variable [DecidableEq S]

theorem configured_step {bufferSize : Int} (h : Configured bufferSize σ)
    (a : BufferAction S M) :
    Configured bufferSize ((bufferMachine bufferSize).step σ a) := by
  cases a with
  | send call =>
    obtain ⟨result, object⟩ := call
    cases object with
    | session session => exact sendSession_configured h result session
    | message message =>
      have hframe := σ.sendMessage_frame result message
      exact ⟨hframe.1.trans h.isDelayed, hframe.2.1.trans h.bufferSize⟩
  | sendList messages =>
    have hframe := σ.sendMessages_frame messages
    exact ⟨hframe.1.trans h.isDelayed, hframe.2.trans h.bufferSize⟩
  | setState state => exact ⟨h.isDelayed, h.bufferSize⟩
  | drain self result =>
    obtain ⟨sessions, sent, -, heq⟩ := self.step_frame result σ
    show Configured bufferSize (self.step result σ).1
    rw [heq]
    exact ⟨h.isDelayed, h.bufferSize⟩

theorem configured_run (bufferSize : Int) (actions : List (BufferAction S M)) :
    Configured bufferSize ((bufferMachine bufferSize).run actions) :=
  (bufferMachine bufferSize).run_invariant (I := Configured bufferSize)
    ⟨rfl, rfl⟩ (fun _ a h => configured_step h a) actions

/-- The delayed sender takes objects out of the buffer or leaves it alone. -/
theorem drain_buffered (self : DelayedSender S) (result : JMSResult) :
    (self.step result σ).1.buffered ≤ σ.buffered := by
  obtain ⟨sessions, sent, hsub, heq⟩ := self.step_frame result σ
  rw [heq]
  exact Nat.add_le_add_right hsub.length_le _

omit [DecidableEq S] in
/-- Messages that are stored unless the sender runs. -/
theorem stored_le_iff {bufferSize : Int} (h : (σ.buffered : Int) ≤ bufferSize)
    (n : Nat) :
    ((if σ.isRunning = true then σ.buffered else σ.buffered + n : Nat) : Int) ≤
        bufferSize ↔
      σ.isRunning = true ∨ (σ.buffered : Int) + n ≤ bufferSize := by
  by_cases hrun : σ.isRunning = true
  · exact iff_of_true (by rwa [if_pos hrun]) (Or.inl hrun)
  · rw [if_neg hrun, or_iff_right hrun]
    omega

/-- A step keeps the bound exactly when what it stores fits. -/
theorem bounded_step_iff {bufferSize : Int} (hσ : Configured bufferSize σ)
    (h : Bounded σ) (a : BufferAction S M) :
    Bounded ((bufferMachine bufferSize).step σ a) ↔ HasRoom σ a := by
  have hnext := configured_step hσ a
  unfold Bounded at h ⊢
  rw [hnext.bufferSize]
  rw [hσ.bufferSize] at h
  cases a with
  | send call =>
    obtain ⟨result, object⟩ := call
    cases object with
    | session session =>
      have hstored := sendSession_buffered hσ.isDelayed
        (by rw [Bounded, hσ.bufferSize]; exact h) result session
      simp only [bufferMachine, send, hstored, HasRoom, hσ.bufferSize]
      omega
    | message message =>
      have hstored := σ.sendMessage_buffered hσ.isDelayed result message
      simp only [bufferMachine, send, hstored, HasRoom, hσ.bufferSize]
      exact stored_le_iff h 1
  | sendList messages =>
    have hstored := σ.sendMessages_buffered hσ.isDelayed messages
    simp only [bufferMachine, hstored, HasRoom, hσ.bufferSize]
    exact stored_le_iff h messages.length
  | setState state => exact iff_of_true h trivial
  | drain self result =>
    refine iff_of_true ?_ trivial
    have hdrain := σ.drain_buffered self result
    show ((self.step result σ).1.buffered : Int) ≤ bufferSize
    omega

/-- The buffer stays within its limit exactly when every object that is stored
finds room there: the code itself does not see to it. -/
theorem bounded_iff {bufferSize : Int} (hsize : 1 ≤ bufferSize)
    (actions : List (BufferAction S M)) :
    (∀ pre, pre <+: actions → Bounded ((bufferMachine bufferSize).run pre)) ↔
      (bufferMachine bufferSize).Along HasRoom actions := by
  apply Machine.forall_prefix_iff_along
  · show ((0 : Nat) : Int) ≤ bufferSize
    omega
  · intro pre a hbounded
    exact bounded_step_iff (configured_run bufferSize pre) hbounded a

/-- Two sessions fit into a buffer of two. -/
theorem bounded_two_sessions :
    Bounded ((bufferMachine (S := Nat) (M := Nat) 2).run
      [.send (.returns, .session 1), .send (.returns, .session 2)]) :=
  (bounded_iff (by decide) _).mpr (by decide) _ List.prefix_rfl

/-- A buffer of one takes a second session. -/
theorem full_buffer_takes_session :
    ¬ ∀ (bufferSize : Int) (actions : List (BufferAction Nat Nat)),
      1 ≤ bufferSize → Bounded ((bufferMachine bufferSize).run actions) := by
  intro h
  have hsecond := h 1
    [.send (.returns, .session 1), .send (.returns, .session 2)] (by decide)
  exact absurd hsecond (by decide)

end JMSSender

end Sipana
