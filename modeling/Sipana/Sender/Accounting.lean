import Mathlib.Algebra.Group.Nat.Defs
import Sipana.Lib.Fifo
import Sipana.Sender.DelayedBuffer

/-!
# The accounts of the buffer

What the buffer has accepted is delivered, still in the queue or discarded. The
delayed sender reads the head of the queue, sends it and removes it; on a full
buffer the caller counts one session as discarded and polls. As long as every
poll takes a session that nobody is sending, every peek finds one, and the
counter of the discarded sessions does not overflow, the accounts balance. The
code does not see to any of them.
-/

namespace Sipana

namespace DelayedBuffer

variable {S M : Type} {σ : DelayedBuffer S M}

/-- The session in an object the producer was given, if it is one. -/
def session? : Option (Serializable S M) → Option S
  | some (.session s) => some s
  | _ => none

/-- The sessions the producer was given, in order. -/
def delivered (σ : DelayedBuffer S M) : List S :=
  σ.sender.sent.filterMap session?

/-- Neither thread is in the middle of an operation. -/
def Quiescent (σ : DelayedBuffer S M) : Prop :=
  σ.caller = .idle ∧ ¬ σ.delayedSender.pc.Holds

instance [DecidableEq S] [DecidableEq M] (σ : DelayedBuffer S M) :
    Decidable σ.Quiescent :=
  inferInstanceAs (Decidable (_ ∧ _))

/-- The producer was given sessions only in the order they were accepted, each
no more often than it was accepted, and nothing is missing. -/
structure Accounted [DecidableEq S] (σ : DelayedBuffer S M) : Prop where
  noNull : none ∉ σ.sender.sent
  once : ∀ s, σ.delivered.count s ≤ σ.accepted.count s
  inOrder : σ.delivered.Sublist σ.accepted
  conserved : σ.Quiescent → (σ.accepted.length : Int) =
    σ.delivered.length + σ.sender.sessions.length +
      σ.sender.getDiscardedSessions.toInt

/-- A poll takes a session that the delayed sender is not sending, a peek finds
one, and fewer than 2^31 sessions are discarded. -/
def Undisturbed (σ : DelayedBuffer S M) : BufferStep S M → Prop
  | .send _ => True
  | .caller =>
    (σ.caller.Polls → σ.sender.sessions ≠ [] ∧ ¬ σ.delayedSender.pc.Holds) ∧
      (σ.caller.Counts → σ.discards + 1 < 2 ^ 31)
  | .delayedSender => σ.delayedSender.pc = .sessionsPeek →
    σ.sender.sessions ≠ []

instance [DecidableEq S] (σ : DelayedBuffer S M) (a : BufferStep S M) :
    Decidable (σ.Undisturbed a) := by
  unfold Undisturbed
  split <;> infer_instance

/-! ## The invariant -/

end DelayedBuffer

/-- The part of the queue that has not been sent. -/
def DelayedSenderPc.unsent {S : Type} (queue : List S) :
    DelayedSenderPc S → List S
  | .sessionsRemove _ => queue.tail
  | _ => queue

theorem DelayedSenderPc.unsent_of_not_holds {S : Type} {queue : List S}
    {pc : DelayedSenderPc S} (h : ¬ pc.Holds) : pc.unsent queue = queue := by
  unfold unsent
  split
  · exact absurd trivial h
  · rfl

/-- One if a session is counted as discarded and not polled yet. -/
def SendPc.owed {S M : Type} (pc : SendPc S M) : Nat := if pc.Polls then 1 else 0

theorem SendPc.owed_of_not_polls {S M : Type} {pc : SendPc S M}
    (h : ¬ pc.Polls) : pc.owed = 0 := if_neg h

namespace DelayedBuffer

variable {S M : Type} {σ : DelayedBuffer S M}

/-- The sessions in the queue that have not been sent. -/
def pending (σ : DelayedBuffer S M) : List S :=
  σ.delayedSender.pc.unsent σ.sender.sessions

/-- The queue of sessions and its history. A session that is counted as
discarded and not polled yet still waits. -/
def fifo (σ : DelayedBuffer S M) : Fifo S where
  accepted := σ.accepted
  waiting := σ.pending
  delivered := σ.delivered
  dropped := σ.discards - σ.caller.owed

/-- The delayed sender holds the head of the queue, or nothing. -/
def HoldsHead (σ : DelayedBuffer S M) : Prop :=
  ∀ x, σ.delayedSender.pc = .sessionsSend x ∨
    σ.delayedSender.pc = .sessionsRemove x →
    ∃ s rest, x = some s ∧ σ.sender.sessions = s :: rest

/-- The counter shows how many sessions were discarded, as far as an `int`
can. -/
def ShowsDiscards (σ : DelayedBuffer S M) : Prop :=
  σ.sender.getDiscardedSessions = Int32.ofNat σ.discards

theorem ShowsDiscards.toInt (h : ShowsDiscards σ) (hfew : σ.discards < 2 ^ 31) :
    σ.sender.getDiscardedSessions.toInt = σ.discards := by
  rw [h, Int32.toInt_ofNat_of_lt hfew]

/-- What undisturbed steps keep. -/
structure Ordered (σ : DelayedBuffer S M) : Prop where
  holdsHead : σ.HoldsHead
  counted : σ.caller.owed ≤ σ.discards
  few : σ.discards < 2 ^ 31
  noNull : none ∉ σ.sender.sent
  sound : σ.fifo.Sound

theorem holdsHead_of_not_holds (h : ¬ σ.delayedSender.pc.Holds) :
    σ.HoldsHead := by
  intro x hx
  rcases hx with hx | hx <;> exact absurd (hx ▸ trivial) h

/-- The head of the queue stays where it is when something is added. -/
theorem unsent_append (h : σ.HoldsHead) (s : S) :
    σ.delayedSender.pc.unsent (σ.sender.sessions ++ [s]) =
      σ.pending ++ [s] := by
  unfold pending DelayedSenderPc.unsent
  split
  · rename_i x hpc
    obtain ⟨head, rest, -, hqueue⟩ := h x (Or.inr hpc)
    simp [hqueue]
  · rfl

variable [DecidableEq S]

theorem holdsHead_step (hrun : Running σ) (h : σ.HoldsHead)
    (a : BufferStep S M) (hcond : Undisturbed σ a) : (σ.step a).HoldsHead := by
  have heff := step_effect hrun a
  generalize σ.step a = τ at heff
  cases heff with
  | waits | calls | increments | sendsMessage => exact h
  | polls hpc => exact holdsHead_of_not_holds (hcond.1 (hpc ▸ trivial)).2
  | @adds s =>
    intro x hx
    obtain ⟨head, rest, hhead, hqueue⟩ := h x hx
    exact ⟨head, rest ++ [s], hhead, by simp [hqueue]⟩
  | moves _ hafter => exact holdsHead_of_not_holds hafter
  | peeks hpc =>
    obtain ⟨head, rest, hqueue⟩ := List.exists_cons_of_ne_nil (hcond hpc)
    intro x hx
    refine ⟨head, rest, ?_, hqueue⟩
    rcases hx with hx | hx
    · simpa [DelayedSender.goto, hqueue, eq_comm] using hx
    · simp [DelayedSender.goto] at hx
  | @delivers x hpc =>
    obtain ⟨head, rest, rfl, hqueue⟩ := h x (Or.inl hpc)
    intro x hx
    refine ⟨head, rest, ?_, hqueue⟩
    rcases hx with hx | hx
    · simp [DelayedSender.goto] at hx
    · simpa [DelayedSender.goto, eq_comm] using hx
  | removes => exact holdsHead_of_not_holds id

theorem noNull_step (hrun : Running σ) (hheld : σ.HoldsHead)
    (h : none ∉ σ.sender.sent) (a : BufferStep S M) :
    none ∉ (σ.step a).sender.sent := by
  have heff := step_effect hrun a
  generalize σ.step a = τ at heff
  cases heff with
  | sendsMessage => simpa [goto, assign] using h
  | @delivers x hpc =>
    obtain ⟨head, rest, rfl, -⟩ := hheld x (Or.inl hpc)
    simpa using h
  | @removes x => cases x <;> exact h
  | _ => exact h

theorem counted_step (hrun : Running σ)
    (h : σ.caller.owed ≤ σ.discards) (a : BufferStep S M) :
    (σ.step a).caller.owed ≤ (σ.step a).discards := by
  have heff := step_effect hrun a
  generalize σ.step a = τ at heff
  cases heff with
  | @calls _ pc _ hafter =>
    show pc.owed ≤ σ.discards
    rw [SendPc.owed_of_not_polls hafter]
    exact Nat.zero_le _
  | increments => exact Nat.le_add_left 1 _
  | polls | adds | sendsMessage => exact Nat.zero_le _
  | @removes x => cases x <;> exact h
  | _ => exact h

theorem few_step (hrun : Running σ) (h : σ.discards < 2 ^ 31)
    (a : BufferStep S M) (hcond : Undisturbed σ a) :
    (σ.step a).discards < 2 ^ 31 := by
  have heff := step_effect hrun a
  generalize σ.step a = τ at heff
  cases heff with
  | increments hpc => exact hcond.2 (hpc ▸ trivial)
  | @removes x => cases x <;> exact h
  | _ => exact h

omit [DecidableEq S] in
/-- A poll drops the oldest session. -/
theorem fifo_drops (h : Ordered σ) (howed : σ.caller.owed = 1)
    (hne : σ.sender.sessions ≠ []) (hfree : ¬ σ.delayedSender.pc.Holds) :
    σ.fifo.Step ⟨σ.accepted,
      σ.delayedSender.pc.unsent σ.sender.sessions.tail, σ.delivered,
      σ.discards⟩ := by
  obtain ⟨oldest, rest, hqueue⟩ := List.exists_cons_of_ne_nil hne
  have hwaiting : σ.pending = oldest :: rest :=
    (DelayedSenderPc.unsent_of_not_holds hfree).trans hqueue
  have hafter : σ.delayedSender.pc.unsent σ.sender.sessions.tail = rest := by
    rw [DelayedSenderPc.unsent_of_not_holds hfree, hqueue, List.tail_cons]
  have hdropped : σ.discards = σ.fifo.dropped + 1 := by
    have hcounted := h.counted
    simp only [fifo]
    omega
  rw [hafter, hdropped]
  exact .drops hwaiting

omit [DecidableEq S] in
/-- The delayed sender sends the head of the queue. -/
theorem fifo_delivers (hheld : σ.HoldsHead) {x : Option S}
    (hpc : σ.delayedSender.pc = .sessionsSend x) :
    σ.fifo.Step ⟨σ.accepted, σ.sender.sessions.tail,
      (σ.sender.sent ++ [x.map Serializable.session]).filterMap session?,
      σ.fifo.dropped⟩ := by
  obtain ⟨head, rest, rfl, hqueue⟩ := hheld x (Or.inl hpc)
  have hwaiting : σ.pending = head :: rest := by
    simp [pending, hpc, DelayedSenderPc.unsent, hqueue]
  have hafter : σ.sender.sessions.tail = rest := by
    rw [hqueue, List.tail_cons]
  have hdelivered : (σ.sender.sent ++
      [(some head).map Serializable.session]).filterMap session? =
        σ.delivered ++ [head] := by
    simp [delivered, session?]
  rw [hafter, hdelivered]
  exact .delivers hwaiting

/-- An undisturbed step is a step of a queue. -/
theorem fifo_step (hrun : Running σ) (h : Ordered σ) (a : BufferStep S M)
    (hcond : Undisturbed σ a) : σ.fifo.Step (σ.step a).fifo := by
  have heff := step_effect hrun a
  generalize σ.step a = τ at heff
  have hheld := h.holdsHead
  cases heff with
  | waits => exact .rests
  | @calls _ pc hbefore hafter =>
    have heq : (σ.goto pc).fifo = σ.fifo := by
      simp only [fifo, SendPc.owed_of_not_polls hbefore]
      simp [goto, SendPc.owed_of_not_polls hafter, pending, delivered]
    exact heq ▸ .rests
  | @increments s hpc =>
    -- what is counted here is dropped by the poll
    have howed : σ.caller.owed = 0 := hpc ▸ rfl
    have heq : σ.discards + 1 - 1 = σ.discards - σ.caller.owed := by omega
    show σ.fifo.Step ⟨σ.accepted, σ.pending, σ.delivered,
      σ.discards + 1 - 1⟩
    rw [heq]
    exact .rests
  | @polls s hpc =>
    obtain ⟨hne, hfree⟩ := hcond.1 (hpc ▸ trivial)
    have howed : σ.caller.owed = 1 := hpc ▸ rfl
    exact fifo_drops h howed hne hfree
  | @adds s hpc =>
    have howed : σ.caller.owed = 0 := hpc ▸ rfl
    show σ.fifo.Step ⟨σ.accepted ++ [s], σ.delayedSender.pc.unsent
      (σ.sender.sessions ++ [s]), σ.delivered, σ.discards - 0⟩
    rw [unsent_append hheld, ← howed]
    exact .accepts s
  | @sendsMessage m hpc =>
    have howed : σ.caller.owed = 0 := hpc ▸ rfl
    have heq : ((σ.assign fun s =>
        { s with sent := s.sent ++ [some (.message m)] }).goto .idle).fifo =
        σ.fifo := by
      simp only [fifo, howed]
      simp [goto, assign, delivered, session?, pending, SendPc.owed,
        SendPc.Polls]
    exact heq ▸ .rests
  | @moves d hbefore hafter =>
    have hpending : d.pc.unsent σ.sender.sessions = σ.pending :=
      (DelayedSenderPc.unsent_of_not_holds hafter).trans
        (DelayedSenderPc.unsent_of_not_holds hbefore).symm
    show σ.fifo.Step ⟨σ.accepted, d.pc.unsent σ.sender.sessions, σ.delivered,
      σ.fifo.dropped⟩
    rw [hpending]
    exact .rests
  | peeks hpc =>
    have hpending : σ.sender.sessions = σ.pending := by
      simp [pending, hpc, DelayedSenderPc.unsent]
    show σ.fifo.Step ⟨σ.accepted, σ.sender.sessions, σ.delivered,
      σ.fifo.dropped⟩
    rw [hpending]
    exact .rests
  | delivers hpc => exact fifo_delivers hheld hpc
  | @removes x hpc =>
    obtain ⟨head, rest, rfl, hqueue⟩ := hheld x (Or.inr hpc)
    have hpending : σ.sender.sessions.erase head = σ.pending := by
      simp [pending, hpc, DelayedSenderPc.unsent, hqueue]
    show σ.fifo.Step ⟨σ.accepted, σ.sender.sessions.erase head, σ.delivered,
      σ.fifo.dropped⟩
    rw [hpending]
    exact .rests

theorem ordered_step (hrun : Running σ) (h : Ordered σ) (a : BufferStep S M)
    (hcond : Undisturbed σ a) : Ordered (σ.step a) :=
  ⟨holdsHead_step hrun h.holdsHead a hcond, counted_step hrun h.counted a,
    few_step hrun h.few a hcond, noNull_step hrun h.holdsHead h.noNull a,
    h.sound.step (fifo_step hrun h a hcond)⟩

theorem ordered_run {bufferSize : Int} {steps : List (BufferStep S M)}
    (h : (machine bufferSize).Along Undisturbed steps) :
    Ordered (run bufferSize steps) :=
  ((machine bufferSize).along_invariant (I := fun σ => Running σ ∧ Ordered σ)
    ⟨running_run bufferSize [], holdsHead_of_not_holds id, Nat.zero_le _,
      Nat.two_pow_pos 31, List.not_mem_nil, Fifo.sound_empty⟩
    (fun _ a hσ hcond => ⟨running_step hσ.1 a, ordered_step hσ.1 hσ.2 a hcond⟩)
    h).2

omit [DecidableEq S] in
theorem showsDiscards_caller (h : ShowsDiscards σ) :
    ShowsDiscards σ.callerStep := by
  unfold ShowsDiscards callerStep
  cases σ.caller with
  | increment s =>
    show σ.sender.getDiscardedSessions + 1 = Int32.ofNat (σ.discards + 1)
    rw [h, Int32.ofNat_add]
    rfl
  | sendNow m =>
    obtain ⟨sent, hsent⟩ :=
      σ.sender.sendNow_frame .returns (some (.message m))
    simp only [goto, assign, hsent]
    exact h
  | _ => exact h

theorem showsDiscards_step (h : ShowsDiscards σ) (a : BufferStep S M) :
    ShowsDiscards (σ.step a) := by
  cases a with
  | send object =>
    show ShowsDiscards (σ.enter object)
    unfold enter
    split <;> exact h
  | caller => exact showsDiscards_caller h
  | delayedSender =>
    obtain ⟨sessions, sent, -, hframe⟩ :=
      DelayedSender.step_frame .returns σ.sender σ.delayedSender
    unfold ShowsDiscards step delayedSenderStep
    simp only [hframe]
    exact h

theorem showsDiscards_run (bufferSize : Int) (steps : List (BufferStep S M)) :
    ShowsDiscards (run bufferSize steps) :=
  (machine bufferSize).run_invariant (I := ShowsDiscards) rfl
    (fun _ a h => showsDiscards_step h a) steps

/-- In a run whose polls and peeks are undisturbed and whose counter does not
overflow the accounts balance. -/
theorem accounted_of_undisturbed (bufferSize : Int)
    (steps : List (BufferStep S M))
    (h : (machine bufferSize).Along Undisturbed steps) :
    Accounted (run bufferSize steps) := by
  have hordered := ordered_run h
  have hdelivered := hordered.sound.delivered_sublist
  refine ⟨hordered.noNull, fun s => hdelivered.count_le s, hdelivered, ?_⟩
  intro hquiet
  obtain ⟨hidle, hfree⟩ := hquiet
  have hpending : (run bufferSize steps).pending =
      (run bufferSize steps).sender.sessions :=
    DelayedSenderPc.unsent_of_not_holds hfree
  have hbalance := hordered.sound.balance
  have hcounter := (showsDiscards_run bufferSize steps).toInt hordered.few
  simp only [fifo, hpending, hidle] at hbalance
  rw [hcounter, ← hbalance]
  push_cast
  rfl

/-- The third session finds the buffer full and displaces the first one; the
second one is delivered. -/
theorem accounted_after_overflow :
    let accept (s : Nat) : List (BufferStep Nat Nat) :=
      .send (.session s) :: List.replicate 4 .caller
    let steps := accept 1 ++ accept 2 ++ accept 3 ++
      List.replicate 9 .delayedSender
    Accounted (run 1 steps) ∧ (run 1 steps).Quiescent ∧
      (run 1 steps).delivered = [2] ∧
      (run 1 steps).sender.getDiscardedSessions = 1 :=
  ⟨accounted_of_undisturbed 1 _ (by decide), by decide, by decide, by decide⟩

/-- The session that is being sent is polled: it is delivered and discarded. -/
theorem session_delivered_and_discarded :
    ¬ ∀ (bufferSize : Int) (steps : List (BufferStep Nat Nat)),
      1 ≤ bufferSize → Accounted (run bufferSize steps) := by
  intro h
  let accept (s : Nat) : List (BufferStep Nat Nat) :=
    [.send (.session s), .caller, .caller]
  -- the third session finds the buffer full while the first is being sent
  let steps := accept 1 ++ accept 2 ++ List.replicate 7 .delayedSender ++
    [.send (.session 3), .caller, .caller, .caller, .caller] ++
    List.replicate 2 .delayedSender
  have hquiet : (run 1 steps).Quiescent := by decide
  have hthree := (h 1 steps (by decide)).conserved hquiet
  exact absurd hthree (by decide)

/-! ## Buffers that have not overflowed -/

/-- Nobody has polled or is about to. -/
structure Unpolled (σ : DelayedBuffer S M) : Prop where
  caller : ¬ σ.caller.Polls
  tested : σ.delayedSender.pc.Tested → σ.sender.sessions ≠ []

theorem discarded_le_step (hrun : Running σ) (a : BufferStep S M) :
    σ.discards ≤ (σ.step a).discards := by
  have heff := step_effect hrun a
  generalize σ.step a = τ at heff
  cases heff with
  | increments => exact Nat.le_succ _
  | @removes x => cases x <;> exact Nat.le_refl _
  | _ => exact Nat.le_refl _

theorem unpolled_step (hrun : Running σ) (h : Unpolled σ) (a : BufferStep S M)
    (hnone : (σ.step a).discards = 0) :
    Unpolled (σ.step a) := by
  have heff := step_effect hrun a
  generalize σ.step a = τ at heff hnone
  cases heff with
  | waits => exact h
  | calls _ hpc => exact ⟨hpc, h.tested⟩
  | increments => exact absurd hnone (Nat.succ_ne_zero _)
  | polls hpc => exact absurd (hpc ▸ trivial) h.caller
  | adds => exact ⟨id, fun _ => by simp⟩
  | sendsMessage => exact ⟨id, h.tested⟩
  | moves _ _ _ htest =>
    exact ⟨h.caller, fun ht => (htest ht).elim h.tested id⟩
  | peeks | delivers => exact ⟨h.caller, False.elim⟩
  | @removes x => cases x <;> exact ⟨h.caller, False.elim⟩

omit [DecidableEq S] in
theorem undisturbed_of_unpolled (h : Unpolled σ) (hnone : σ.discards = 0)
    (a : BufferStep S M) : Undisturbed σ a := by
  cases a with
  | send object => trivial
  | caller =>
    refine ⟨fun hpolls => absurd hpolls h.caller, fun _ => ?_⟩
    rw [hnone]
    decide
  | delayedSender =>
    intro hpc
    exact h.tested (by simp [hpc, DelayedSenderPc.Tested])

/-- A buffer that has discarded nothing has not been disturbed either. -/
theorem ordered_of_none_discarded {bufferSize : Int}
    {steps : List (BufferStep S M)}
    (h : (run bufferSize steps).discards = 0) :
    Ordered (run bufferSize steps) ∧ Unpolled (run bufferSize steps) := by
  induction steps using List.reverseRecOn with
  | nil =>
    exact ⟨ordered_run (fun pre a post heq => by simp at heq), id, False.elim⟩
  | append_singleton steps a ih =>
    have hrun := running_run bufferSize steps
    rw [run, Machine.run_snoc] at h ⊢
    have hbefore := discarded_le_step hrun a
    have hnone := Nat.le_zero.mp (h ▸ hbefore)
    obtain ⟨hordered, hunpolled⟩ := ih hnone
    have hcond := undisturbed_of_unpolled hunpolled hnone a
    exact ⟨ordered_step hrun hordered a hcond, unpolled_step hrun hunpolled a h⟩

/-- Until then everything accepted was delivered or waits in the queue. -/
theorem accepted_of_none_discarded {bufferSize : Int}
    {steps : List (BufferStep S M)}
    (h : (run bufferSize steps).discards = 0) :
    (run bufferSize steps).accepted =
      (run bufferSize steps).delivered ++ (run bufferSize steps).pending := by
  apply (ordered_of_none_discarded h).1.sound.accepted_eq
  show (run bufferSize steps).discards - _ = 0
  rw [h, Nat.zero_sub]

end DelayedBuffer

end Sipana
