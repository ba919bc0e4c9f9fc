import Sipana.Sender.SenderSystem

/-!
# The guard of the drain loops

The loops of the delayed sender are guarded by `isRunning()`, which is the
method of the inner class: the guard reads the flag of the thread and not the
state of the sender. `onException` sets the state before it clears the flag, and
a failing `start` sets the state and leaves the flag alone.

Here a guard and the `sendNow` it admits are one step, the thread's turn. All
other steps are those of the sender system.
-/

namespace Sipana

/-- Between the evaluation of a loop guard and the end of the `sendNow` that it
admits. -/
def DelayedSenderPc.Admitted {S : Type} : DelayedSenderPc S → Bool
  | .sessionsRunning | .sessionsPeek | .sessionsSend _
  | .messagesRunning | .messagesPeek | .messagesSend _ => true
  | _ => false

/-- The calls of `sendNow` that the thread begins in its next step. -/
def DelayedSenderPc.begins {S : Type} :
    DelayedSenderPc S → List (Option S)
  | .sessionsSend x | .messagesSend x => [x]
  | _ => []

/-- A turn of a thread, with the calls of `sendNow` it has begun. -/
structure Turn (S M : Type) where
  sender : JMSSender S M
  self : DelayedSender S
  begun : List (Option S) := []
deriving DecidableEq, Repr

namespace Turn

variable {S M : Type} [DecidableEq S]

def step (result : JMSResult) (t : Turn S M) : Turn S M :=
  let (sender, self) := t.self.step result t.sender
  { sender, self, begun := t.begun ++ t.self.pc.begins }

def finish (result : JMSResult) (t : Turn S M) : Turn S M :=
  if t.self.pc.Admitted then t.step result else t

/-- One step, and on to the end of the `sendNow` if a guard admits it. -/
def run (result : JMSResult) (σ : JMSSender S M) (self : DelayedSender S) :
    Turn S M :=
  ((({ sender := σ, self } : Turn S M).step result |>.finish result).finish
    result).finish result

/-- The thread evaluates a loop guard, and the queue it tests is not empty. -/
def AtGuard (σ : JMSSender S M) (self : DelayedSender S) : Prop :=
  (self.pc = .sessionsSize ∧ σ.sessions ≠ []) ∨
    (self.pc = .messagesSize ∧ σ.messages ≠ [])

/-- The thread removes this session in its next step. -/
def removes : DelayedSenderPc S → Option S
  | .sessionsRemove x | .messagesRemove x => x
  | _ => none

variable {result : JMSResult} {σ : JMSSender S M} {self : DelayedSender S}

/-- A guard that finds the flag set admits a `sendNow`. -/
theorem run_admitted (result : JMSResult) (h : AtGuard σ self)
    (hrunning : self.running = true) :
    (run result σ self).begun = [σ.sessions.head?] ∧
      (run result σ self).self.pc.Admitted = false := by
  obtain ⟨running, pc⟩ := self
  subst hrunning
  rcases h with ⟨hpc, hqueue⟩ | ⟨hpc, hqueue⟩ <;> simp only at hpc <;>
    subst hpc <;> have hlength := List.length_pos_iff.mpr hqueue
  · generalize hsend : σ.sendNow result (σ.sessions.head?.map .session) = sent
    obtain ⟨τ, ending⟩ := sent
    cases ending <;>
      simp [run, step, finish, DelayedSender.step, DelayedSender.goto,
        DelayedSender.isRunning, DelayedSenderPc.Admitted,
        DelayedSenderPc.begins, hlength, hsend]
  · generalize hsend : σ.sendNow result (σ.sessions.head?.map .session) = sent
    obtain ⟨τ, ending⟩ := sent
    cases ending <;>
      simp [run, step, finish, DelayedSender.step, DelayedSender.goto,
        DelayedSender.isRunning, DelayedSenderPc.Admitted,
        DelayedSenderPc.begins, hlength, hsend]

/-- A turn is over after one step if that step admits no `sendNow`. -/
theorem run_of_not_admitted
    (h : (self.step result σ).2.pc.Admitted = false) :
    run result σ self = ({ sender := σ, self } : Turn S M).step result := by
  have hfinish : (({ sender := σ, self } : Turn S M).step result).finish
      result = ({ sender := σ, self } : Turn S M).step result :=
    if_neg (by simpa [step] using h)
  unfold run
  rw [hfinish, hfinish, hfinish]

/-- A step that is neither in a turn nor begins one. -/
theorem step_silent (result : JMSResult) (hpc : self.pc.Admitted = false)
    (h : ¬ AtGuard σ self) :
    (self.step result σ).1 = DelayedSender.remove σ (removes self.pc) ∧
      (self.step result σ).2.pc.Admitted = false := by
  obtain ⟨running, pc⟩ := self
  simp only at hpc
  cases pc with
  | sessionsRunning | sessionsPeek | sessionsSend | messagesRunning
  | messagesPeek | messagesSend =>
    exact absurd hpc (by simp [DelayedSenderPc.Admitted])
  | sessionsSize =>
    have hqueue : σ.sessions = [] := by
      by_contra hqueue
      exact h (Or.inl ⟨rfl, hqueue⟩)
    simp [DelayedSender.step, DelayedSender.goto, DelayedSenderPc.Admitted,
      removes, DelayedSender.remove, hqueue]
  | messagesSize =>
    have hqueue : σ.messages = [] := by
      by_contra hqueue
      exact h (Or.inr ⟨rfl, hqueue⟩)
    simp [DelayedSender.step, DelayedSender.goto, DelayedSenderPc.Admitted,
      removes, DelayedSender.remove, hqueue]
  | loopGuard | checkRunning =>
    cases running <;>
      simp [DelayedSender.step, DelayedSender.goto, DelayedSender.isRunning,
        DelayedSenderPc.Admitted, removes, DelayedSender.remove]
  | _ =>
    simp [DelayedSender.step, DelayedSender.goto, DelayedSenderPc.Admitted,
      removes, DelayedSender.remove]

/-- A guard that finds the flag cleared leaves its loop. -/
theorem run_held (result : JMSResult) (h : AtGuard σ self)
    (hflag : self.running = false) :
    (run result σ self).begun = [] ∧
      (run result σ self).sender =
        DelayedSender.remove σ (removes self.pc) ∧
      (run result σ self).self.pc.Admitted = false := by
  obtain ⟨running, pc⟩ := self
  subst hflag
  rcases h with ⟨hpc, hqueue⟩ | ⟨hpc, hqueue⟩ <;> simp only at hpc <;>
    subst hpc <;> have hlength := List.length_pos_iff.mpr hqueue
  · simp [run, step, finish, DelayedSender.step, DelayedSender.goto,
      DelayedSender.isRunning, DelayedSenderPc.Admitted,
      DelayedSenderPc.begins, removes, DelayedSender.remove, hlength]
  · simp [run, step, finish, DelayedSender.step, DelayedSender.goto,
      DelayedSender.isRunning, DelayedSenderPc.Admitted,
      DelayedSenderPc.begins, removes, DelayedSender.remove, hlength]

omit [DecidableEq S] in
theorem begins_of_not_admitted {pc : DelayedSenderPc S}
    (h : pc.Admitted = false) : pc.begins = [] := by
  cases pc <;> simp_all [DelayedSenderPc.Admitted, DelayedSenderPc.begins]

/-- Any other turn at most removes a session that was sent before. -/
theorem run_silent (result : JMSResult) (hpc : self.pc.Admitted = false)
    (h : AtGuard σ self → self.running = false) :
    (run result σ self).begun = [] ∧
      (run result σ self).sender =
        DelayedSender.remove σ (removes self.pc) ∧
      (run result σ self).self.pc.Admitted = false := by
  by_cases hguard : AtGuard σ self
  · exact run_held result hguard (h hguard)
  · obtain ⟨hsender, hadmitted⟩ := step_silent result hpc hguard
    rw [run_of_not_admitted hadmitted]
    exact ⟨begins_of_not_admitted hpc, hsender, hadmitted⟩

/-- The turn begins no `sendNow` and removes nothing from the queues. -/
def Silent (result : JMSResult) (σ : JMSSender S M) (self : DelayedSender S) :
    Prop :=
  (run result σ self).begun = [] ∧
    (run result σ self).sender.sessions = σ.sessions ∧
    (run result σ self).sender.messages = σ.messages

/-- The flag of the thread is cleared if it evaluates a guard, and there is
nothing that it removes. -/
def Held (σ : JMSSender S M) (self : DelayedSender S) : Prop :=
  (AtGuard σ self → self.running = false) ∧
    ∀ s, removes self.pc = some s → s ∉ σ.sessions

theorem silent_iff_held (hpc : self.pc.Admitted = false) :
    Silent result σ self ↔ Held σ self := by
  unfold Silent Held
  by_cases hguard : AtGuard σ self → self.running = false
  · obtain ⟨hbegun, hsender, -⟩ := run_silent result hpc hguard
    rw [and_iff_right hbegun, and_iff_right hguard, hsender]
    cases removes self.pc with
    | none => simp [DelayedSender.remove]
    | some s =>
      simp only [DelayedSender.remove, Option.some.injEq, forall_eq',
        and_true]
      rw [List.erase_eq_self_iff]
  · obtain ⟨hat, hflag⟩ := Classical.not_imp.mp hguard
    have hbegun := (run_admitted result hat
      (by simpa using hflag)).1
    refine ⟨fun h => ?_, fun h => absurd h.1 hguard⟩
    rw [hbegun] at h
    exact absurd h.1 (List.cons_ne_nil _ _)

theorem run_admits_nothing (hpc : self.pc.Admitted = false) :
    (run result σ self).self.pc.Admitted = false := by
  by_cases hguard : AtGuard σ self → self.running = false
  · exact (run_silent result hpc hguard).2.2
  · obtain ⟨hat, hflag⟩ := Classical.not_imp.mp hguard
    exact (run_admitted result hat (by simpa using hflag)).2

end Turn

/-! ## Between the turns -/

namespace SenderSystem

variable {S M : Type}

/-- Between two turns no delayed sender is inside one. -/
def BetweenTurns (σ : SenderSystem S M) : Prop :=
  ∀ d ∈ σ.delayedSenders, d.pc.Admitted = false

/-- What the other steps do to the delayed senders: a new one is created, or a
flag is cleared. -/
def Unmoved (σ τ : SenderSystem S M) : Prop :=
  ∀ d ∈ τ.delayedSenders, d.pc = .ready ∨ ∃ e ∈ σ.delayedSenders, d.pc = e.pc

theorem unmoved_of_eq {σ τ : SenderSystem S M}
    (h : τ.delayedSenders = σ.delayedSenders) : Unmoved σ τ := by
  intro d hd
  exact Or.inr ⟨d, h ▸ hd, rfl⟩

theorem unmoved_clear (σ : SenderSystem S M) (k : Nat) :
    Unmoved σ (σ.clearDelayedSender k) := by
  intro d hd
  right
  unfold clearDelayedSender at hd
  obtain ⟨j, hj⟩ := List.mem_iff_getElem?.mp hd
  rw [List.getElem?_modify] at hj
  cases he : σ.delayedSenders[j]? with
  | none => simp [he] at hj
  | some e =>
    refine ⟨e, List.mem_of_getElem? he, ?_⟩
    rw [he] at hj
    by_cases hkj : k = j <;> simp [hkj] at hj <;> rw [← hj]

theorem unmoved_startStep (result : JMSResult) (σ : SenderSystem S M)
    (pc : StartPc) : Unmoved σ (σ.startStep result pc).1 := by
  cases pc with
  | startDelayedSender =>
    intro d hd
    rcases List.mem_append.mp hd with hd | hd
    · exact Or.inr ⟨d, hd, rfl⟩
    · rw [List.mem_singleton.mp hd]
      exact Or.inl rfl
  | testReconnector =>
    apply unmoved_of_eq
    simp only [startStep]
    split <;> rfl
  | setRunning | setFailed | startReconnector | returned =>
    exact unmoved_of_eq rfl
  | _ => cases result <;> exact unmoved_of_eq rfl

theorem unmoved_callStep (σ : SenderSystem S M) (i : Nat)
    (result : JMSResult) : Unmoved σ (σ.callStep i result) := by
  unfold callStep
  split
  · exact unmoved_of_eq rfl
  · exact unmoved_startStep result σ _
  · rename_i pc _
    cases pc with
    | clearRunning k => exact unmoved_clear σ k
    | stopDelayedSender =>
      apply unmoved_of_eq
      simp only [stopStep]
      split <;> rfl
    | closeConnection =>
      apply unmoved_of_eq
      simp only [stopStep]
      split <;> rfl
    | _ => exact unmoved_of_eq rfl
  · rename_i pc _
    cases pc with
    | clearRunning k => exact unmoved_clear σ k
    | testDelayedSenderRunning | stopDelayedSender =>
      apply unmoved_of_eq
      simp only [onExceptionStep]
      split <;> rfl
    | _ => exact unmoved_of_eq rfl

theorem unmoved_reconnectorStep (σ : SenderSystem S M) (k : Nat)
    (result : JMSResult) : Unmoved σ (σ.reconnectorStep k result) := by
  unfold reconnectorStep
  split
  · exact unmoved_of_eq rfl
  · split
    · exact unmoved_startStep result σ _
    · exact unmoved_of_eq rfl

theorem unmoved_betweenTurns {σ τ : SenderSystem S M} (h : BetweenTurns σ)
    (hτ : Unmoved σ τ) : BetweenTurns τ := by
  intro d hd
  rcases hτ d hd with hpc | ⟨e, he, hpc⟩
  · rw [hpc]
    rfl
  · rw [hpc]
    exact h e he

end SenderSystem

/-! ## The system -/

/-- A call of `send`, or a step of the sender system in which a delayed sender
takes a whole turn. -/
inductive DrainAction (S M : Type)
  | send (call : JMSResult × Serializable S M)
  | move (a : SenderSystem.Action)
deriving DecidableEq, Repr

namespace DrainAction

open SenderSystem

variable {S M : Type} [DecidableEq S]

/-- A turn of the thread of the `k`-th delayed sender. -/
def drainTurn (σ : SenderSystem S M) (k : Nat) (result : JMSResult) :
    SenderSystem S M :=
  match σ.delayedSenders[k]? with
  | none => σ
  | some d =>
    let turn := Turn.run result σ.sender d
    { σ with
      sender := turn.sender
      delayedSenders := σ.delayedSenders.set k turn.self }

def step (σ : SenderSystem S M) : DrainAction S M → SenderSystem S M
  | .send call => σ.assign (·.send call)
  | .move (.delayedSender k result) => drainTurn σ k result
  | .move a => σ.step a

/-- The system right after `new JMSSender()`, with any content of the buffer. -/
def machine (isDelayed : Bool) (bufferSize : Int) (sessions : List S)
    (messages : List M) : Machine (SenderSystem S M) (DrainAction S M) where
  init := { sender := { isDelayed, bufferSize, sessions, messages } }
  step := step

/-- Unless the sender runs, a delayed sender begins no `sendNow` and removes
nothing. -/
def DrainsNothing (σ : SenderSystem S M) : DrainAction S M → Prop
  | .move (.delayedSender k result) =>
    σ.sender.state ≠ .running → ∀ d ∈ σ.delayedSenders[k]?,
      Turn.Silent result σ.sender d
  | _ => True

/-- Unless the sender runs, a delayed sender that evaluates a guard finds its
flag cleared, and none removes what it has sent. -/
def FlagAgrees (σ : SenderSystem S M) : DrainAction S M → Prop
  | .move (.delayedSender k _) =>
    σ.sender.state ≠ .running → ∀ d ∈ σ.delayedSenders[k]?,
      Turn.Held σ.sender d
  | _ => True

/-! ## Turns are made of steps -/

/-- The system in the middle of a turn of the `k`-th delayed sender. -/
def place (σ : SenderSystem S M) (k : Nat) (t : Turn S M) : SenderSystem S M :=
  { σ with sender := t.sender, delayedSenders := σ.delayedSenders.set k t.self }

theorem place_step {σ : SenderSystem S M} {k : Nat}
    (hk : k < σ.delayedSenders.length) (result : JMSResult) (t : Turn S M) :
    place σ k (t.step result) =
      (place σ k t).step (.delayedSender k result) := by
  have hself : (place σ k t).delayedSenders[k]? = some t.self :=
    List.getElem?_set_self hk
  show _ = (place σ k t).delayedSenderStep k result
  unfold delayedSenderStep
  simp only [hself]
  simp [place, Turn.step]

theorem place_finish {σ : SenderSystem S M} {k : Nat}
    (hk : k < σ.delayedSenders.length) (result : JMSResult) (t : Turn S M) :
    place σ k (t.finish result) = place σ k t ∨
      place σ k (t.finish result) =
        (place σ k t).step (.delayedSender k result) := by
  unfold Turn.finish
  split
  · exact Or.inr (place_step hk result t)
  · exact Or.inl rfl

/-- A turn is a number of steps of the thread. -/
theorem drainTurn_eq_steps (σ : SenderSystem S M) (k : Nat)
    (result : JMSResult) (isDelayed : Bool) (bufferSize : Int) :
    ∃ n, drainTurn σ k result =
      (SenderSystem.machine isDelayed bufferSize).exec σ
        (List.replicate n (.delayedSender k result)) := by
  unfold drainTurn
  cases hd : σ.delayedSenders[k]? with
  | none => exact ⟨0, rfl⟩
  | some d =>
    obtain ⟨hk, hget⟩ := List.getElem?_eq_some_iff.mp hd
    have hstart : place σ k { sender := σ.sender, self := d } = σ := by
      simp [place, ← hget]
    have hsteps : ∀ t : Turn S M, (∃ n, place σ k t =
        (SenderSystem.machine isDelayed bufferSize).exec σ
          (List.replicate n (.delayedSender k result))) →
        ∃ n, place σ k (t.finish result) =
          (SenderSystem.machine isDelayed bufferSize).exec σ
            (List.replicate n (.delayedSender k result)) := by
      intro t ht
      obtain ⟨n, hn⟩ := ht
      rcases place_finish hk result t with h | h
      · exact ⟨n, h.trans hn⟩
      · refine ⟨n + 1, ?_⟩
        rw [h, hn, List.replicate_succ', Machine.exec_snoc]
        rfl
    have hfirst := place_step hk result { sender := σ.sender, self := d }
    rw [hstart] at hfirst
    exact hsteps _ (hsteps _ (hsteps _ ⟨1, hfirst⟩))

theorem betweenTurns_step {σ : SenderSystem S M} (h : BetweenTurns σ)
    (a : DrainAction S M) : BetweenTurns (step σ a) := by
  cases a with
  | send call => exact h
  | move a =>
    cases a with
    | start | stop | onException => exact h
    | call i result =>
      exact unmoved_betweenTurns h (unmoved_callStep σ i result)
    | reconnector k result =>
      exact unmoved_betweenTurns h (unmoved_reconnectorStep σ k result)
    | delayedSender k result =>
      show BetweenTurns (drainTurn σ k result)
      unfold drainTurn
      cases hd : σ.delayedSenders[k]? with
      | none => exact h
      | some d =>
        intro e he
        rcases List.mem_or_eq_of_mem_set he with he | rfl
        · exact h e he
        · exact Turn.run_admits_nothing (h d (List.mem_of_getElem? hd))

/-- The loops keep still while the sender is down exactly when no guard finds
its flag set then, and none of them removes what it has sent before. -/
theorem drains_nothing_iff (isDelayed : Bool) (bufferSize : Int)
    (sessions : List S) (messages : List M)
    (actions : List (DrainAction S M)) :
    (machine isDelayed bufferSize sessions messages).Along DrainsNothing
        actions ↔
      (machine isDelayed bufferSize sessions messages).Along FlagAgrees
        actions := by
  apply Machine.along_congr
  intro before a _ _
  have hbetween : BetweenTurns
      ((machine isDelayed bufferSize sessions messages).run before) :=
    Machine.run_invariant _ (I := BetweenTurns)
      (fun d hd => absurd hd List.not_mem_nil)
      (fun _ a h => betweenTurns_step h a) before
  unfold DrainsNothing FlagAgrees
  split
  · refine imp_congr_right fun _ => forall_congr' fun d =>
      forall_congr' fun hd => ?_
    exact Turn.silent_iff_held (hbetween d (List.mem_of_getElem? hd))
  · exact Iff.rfl

/-- `onException` has set the state and not cleared the flag yet. -/
theorem outage_is_drained :
    ¬ ∀ (sessions messages : List Nat) (actions : List (DrainAction Nat Nat)),
      (machine true 10 sessions messages).Along DrainsNothing actions := by
  intro h
  let outage : List (DrainAction Nat Nat) :=
    [.move .start] ++ List.replicate 10 (.move (.call 0 .returns)) ++
      List.replicate 4 (.move (.delayedSender 0 .returns)) ++
      [.move .onException] ++ List.replicate 2 (.move (.call 1 .returns))
  have hsilent := h [1] [] (outage ++ [.move (.delayedSender 0 .returns)])
    outage _ [] rfl (by decide) ⟨true, .sessionsSize⟩ (by decide)
  exact absurd hsilent.1 (by decide)

end DrainAction

end Sipana
