import Sipana.Sender.Accounting
import Sipana.Sender.SenderSystem

/-!
# The last flush

`DelayedSender.stop` wakes the thread "to send remaining messages" and then
clears the flag that both loops of the thread test; `JMSSender.stop` closes the
connection after that. The thread gets through its buffer only if it is faster.

A wait may end at any time, by the notification, by its interval or for no
reason, so the notification leaves no trace in the state. The connection takes
what it is given as long as it is open.
-/

namespace Sipana

/-- The thread has passed the guard of the loop and not sent yet. -/
def DelayedSenderPc.Sends {S : Type} : DelayedSenderPc S → Bool
  | .sessionsPeek | .sessionsSend _ => true
  | _ => false

/-- The flag of the delayed sender has still to be cleared. -/
def StopPc.Clears : StopPc → Prop
  | .testDelayedSender | .stopDelayedSender | .clearRunning _ => True
  | .testRunning | .closeConnection | .returned => False

/-- Who moves next: the caller of `stop`, with the result of `close` if it is
reached, or the thread. -/
inductive FlushStep
  | stop (result : JMSResult)
  | delayedSender
deriving DecidableEq, Repr

/-- What changes while a sender stops. -/
structure Shutdown (S M : Type) where
  queue : List S
  sent : List (Option (Serializable S M))
  isOpen : Bool := true
  self : DelayedSender S := ⟨true, .waiting⟩
  pc : StopPc := .testDelayedSender

namespace Shutdown

variable {S M : Type}

/-- The sender system that stops. -/
def system (bufferSize : Int) (f : Shutdown S M) : SenderSystem S M where
  sender :=
    { isDelayed := true, bufferSize, state := .running, connection := some 0,
      session := some 0, producer := some 0, delayedSender := some 0,
      sessions := f.queue, sent := f.sent }
  connections := [f.isOpen]
  delayedSenders := [f.self]
  calls := [.stop f.pc]

/-- The connection of the sender is open. -/
def Connected (σ : SenderSystem S M) : Prop := σ.connections[0]? = some true

instance (σ : SenderSystem S M) : Decidable (Connected σ) :=
  inferInstanceAs (Decidable (_ = _))

/-- A step of the sender system. -/
def flushStep [DecidableEq S] (σ : SenderSystem S M) :
    FlushStep → SenderSystem S M
  | .stop result => σ.step (.call 0 result)
  | .delayedSender =>
    σ.step (.delayedSender 0 (if Connected σ then .returns else .throws))

/-- `stop` is called while the delayed sender waits in its interval. -/
def machine [DecidableEq S] (bufferSize : Int) (sessions : List S)
    (sent : List (Option (Serializable S M))) :
    Machine (SenderSystem S M) FlushStep :=
  ⟨system bufferSize { queue := sessions, sent }, flushStep⟩

/-- The thread has left its loop. -/
def Left (σ : SenderSystem S M) : Prop :=
  ∀ d ∈ σ.delayedSenders, d.pc = .stopped

/-- The producer has taken all the sessions, in order. -/
def Flushed (sessions : List S) (sent : List (Option (Serializable S M)))
    (σ : SenderSystem S M) : Prop :=
  σ.sender.sent = sent ++ sessions.map (some ∘ .session)

/-- The sessions that have not been sent. -/
def unsent (σ : SenderSystem S M) : List S :=
  match σ.delayedSenders[0]? with
  | some d => d.pc.unsent σ.sender.sessions
  | none => σ.sender.sessions

/-- One if the thread is going to send once more, over an open connection. -/
def underway (σ : SenderSystem S M) : Nat :=
  match σ.delayedSenders[0]? with
  | some d => if d.pc.Sends ∧ Connected σ then 1 else 0
  | none => 0

/-- When the flag is cleared, only a session whose send is under way is left,
and when the connection is closed, none. -/
def InTime (σ : SenderSystem S M) : FlushStep → Prop
  | .stop result =>
    match σ.calls[0]? with
    | some (Frame.stop (.clearRunning _)) => (unsent σ).length ≤ underway σ
    | some (Frame.stop .closeConnection) => result = .returns → unsent σ = []
    | _ => True
  | .delayedSender => True

/-! ## What a step can do -/

/-- The thread evaluates a guard and goes on to `pc`. -/
def Moves (f : Shutdown S M) (pc : DelayedSenderPc S) : Prop :=
  (¬ f.self.pc.Holds ∧ f.self.pc.Sends = false) ∧
    ¬ pc.Holds ∧ ¬ pc.InMessages ∧ pc ≠ .ready ∧
    (pc.Sends = true → f.self.running = true) ∧
    (pc.Tested → f.self.pc.Tested ∨ f.queue ≠ []) ∧
    (pc = .stopped → f.self.running = false)

/-- The steps of the two threads. -/
inductive Effect [DecidableEq S] (f : Shutdown S M) :
    FlushStep → Shutdown S M → Prop
  | returned {result} : f.pc = .returned → Effect f (.stop result) f
  | left : f.self.pc = .stopped → Effect f .delayedSender f
  | calls {result pc} : (∀ k, f.pc ≠ .clearRunning k) →
      (f.pc = .closeConnection → result = .throws) →
      (f.pc.Clears ↔ pc.Clears) → (∀ k, pc = .clearRunning k → k = 0) →
      Effect f (.stop result) { f with pc := pc }
  | clears {result k} : f.pc = .clearRunning k →
      Effect f (.stop result) { f with
        self := { f.self with running := false }
        pc := .testRunning }
  | closes : f.pc = .closeConnection →
      Effect f (.stop .returns) { f with isOpen := false, pc := .returned }
  | moves {pc} : Moves f pc →
      Effect f .delayedSender { f with self := f.self.goto pc }
  | peeks : f.self.pc = .sessionsPeek →
      Effect f .delayedSender { f with
        self := f.self.goto (.sessionsSend f.queue.head?) }
  | delivers {x} : f.self.pc = .sessionsSend x → f.isOpen = true →
      Effect f .delayedSender { f with
        sent := f.sent ++ [x.map .session]
        self := f.self.goto (.sessionsRemove x) }
  | refused {x} : f.self.pc = .sessionsSend x → f.isOpen = false →
      Effect f .delayedSender { f with self := f.self.goto .loopGuard }
  | removes {s} : f.self.pc = .sessionsRemove (some s) →
      Effect f .delayedSender { f with
        queue := f.queue.erase s
        self := f.self.goto .sessionsSize }

/-- What every step keeps. `all` is what the producer is to take. -/
structure Ordered (all : List (Option (Serializable S M)))
    (f : Shutdown S M) : Prop where
  conserved :
    f.sent ++ (f.self.pc.unsent f.queue).map (some ∘ .session) = all
  holdsHead : ∀ x, f.self.pc = .sessionsSend x ∨ f.self.pc = .sessionsRemove x →
    ∃ s rest, x = some s ∧ f.queue = s :: rest
  tested : f.self.pc.Tested → f.queue ≠ []
  inLoop : ¬ f.self.pc.InMessages ∧ f.self.pc ≠ .ready
  flag : f.self.running = true ↔ f.pc.Clears
  thread : ∀ k, f.pc = .clearRunning k → k = 0
  stopped : f.self.pc = .stopped → f.self.running = false
  openBefore : f.self.running = true → f.isOpen = true

variable [DecidableEq S] {bufferSize : Int} {f : Shutdown S M}
  {all : List (Option (Serializable S M))}

theorem stop_effect (h : Ordered all f) (result : JMSResult) :
    ∃ g, Effect f (.stop result) g ∧
      flushStep (system bufferSize f) (.stop result) = system bufferSize g := by
  show ∃ g, _ ∧ (system bufferSize f).callStep 0 result = _
  unfold SenderSystem.callStep system
  cases hpc : f.pc with
  | testDelayedSender =>
    exact ⟨{ f with pc := .stopDelayedSender },
      .calls (by simp [hpc]) (by simp [hpc]) (by simp [hpc, StopPc.Clears])
        (by simp), rfl⟩
  | stopDelayedSender =>
    exact ⟨{ f with pc := .clearRunning 0 },
      .calls (by simp [hpc]) (by simp [hpc]) (by simp [hpc, StopPc.Clears])
        (by simp), rfl⟩
  | clearRunning k =>
    obtain rfl := h.thread k hpc
    exact ⟨_, .clears hpc, rfl⟩
  | testRunning =>
    exact ⟨{ f with pc := .closeConnection },
      .calls (by simp [hpc]) (by simp [hpc]) (by simp [hpc, StopPc.Clears])
        (by simp), rfl⟩
  | closeConnection =>
    cases result with
    | returns => exact ⟨_, .closes hpc, rfl⟩
    | throws =>
      exact ⟨{ f with pc := .returned },
        .calls (by simp [hpc]) (fun _ => rfl) (by simp [hpc, StopPc.Clears])
          (by simp), rfl⟩
  | returned =>
    refine ⟨f, .returned hpc, ?_⟩
    rw [hpc]
    rfl

theorem delayedSender_eq (bufferSize : Int) (f : Shutdown S M) :
    flushStep (system bufferSize f) .delayedSender =
      let c := f.self.step (if f.isOpen then .returns else .throws)
        (system bufferSize f).sender
      { system bufferSize f with sender := c.1, delayedSenders := [c.2] } := by
  have hopen : Connected (system bufferSize f) ↔ f.isOpen = true := by
    simp [Connected, system]
  show (system bufferSize f).delayedSenderStep 0 _ = _
  simp only [hopen]
  rfl

theorem effect_goto (pc : DelayedSenderPc S) (h : Moves f pc) :
    Effect f .delayedSender { f with self := f.self.goto pc } := .moves h

theorem delayedSender_effect (h : Ordered all f) :
    ∃ g, Effect f .delayedSender g ∧
      flushStep (system bufferSize f) .delayedSender =
        system bufferSize g := by
  rw [delayedSender_eq]
  have hproducer : (system bufferSize f).sender.HasProducer := ⟨nofun, nofun⟩
  obtain ⟨-, hhead, htested, ⟨hmessages, hready⟩, -, -, -, -⟩ := h
  unfold DelayedSender.step
  cases hpc : f.self.pc with
  | ready => exact absurd hpc hready
  | messagesRunning | messagesPeek | messagesSend | messagesRemove =>
    exact absurd (by simp [hpc, DelayedSenderPc.InMessages]) hmessages
  | stopped =>
    refine ⟨f, .left hpc, ?_⟩
    rfl
  | waiting =>
    refine ⟨_, effect_goto .checkRunning ?_, rfl⟩
    simp_all [Moves,
      DelayedSenderPc.Holds, DelayedSenderPc.Sends, DelayedSenderPc.InMessages,
      DelayedSenderPc.Tested]
  | messagesSize =>
    refine ⟨_, effect_goto .loopGuard ?_, rfl⟩
    simp_all [Moves,
      DelayedSenderPc.Holds, DelayedSenderPc.Sends, DelayedSenderPc.InMessages,
      DelayedSenderPc.Tested]
  | loopGuard =>
    refine ⟨_, effect_goto (if f.self.running then .waiting else .stopped) ?_,
      rfl⟩
    split <;> simp_all [Moves,
      DelayedSenderPc.Holds, DelayedSenderPc.Sends, DelayedSenderPc.InMessages,
      DelayedSenderPc.Tested]
  | checkRunning =>
    refine ⟨_, effect_goto
      (if f.self.isRunning then .sessionsSize else .loopGuard) ?_, rfl⟩
    split <;> simp_all [Moves, DelayedSender.isRunning,
      DelayedSenderPc.Holds, DelayedSenderPc.Sends, DelayedSenderPc.InMessages,
      DelayedSenderPc.Tested]
  | sessionsSize =>
    refine ⟨_, effect_goto
      (if f.queue.length > 0 then .sessionsRunning else .messagesSize) ?_, rfl⟩
    split <;> simp_all [Moves,
      DelayedSenderPc.Holds, DelayedSenderPc.Sends, DelayedSenderPc.InMessages,
      DelayedSenderPc.Tested, List.length_pos_iff]
  | sessionsRunning =>
    refine ⟨_, effect_goto
      (if f.self.isRunning then .sessionsPeek else .messagesSize) ?_, rfl⟩
    split <;> simp_all [Moves, DelayedSender.isRunning,
      DelayedSenderPc.Holds, DelayedSenderPc.Sends, DelayedSenderPc.InMessages,
      DelayedSenderPc.Tested]
  | sessionsPeek => exact ⟨_, .peeks hpc, rfl⟩
  | sessionsSend x =>
    cases hopen : f.isOpen with
    | true =>
      refine ⟨_, .delivers hpc hopen, ?_⟩
      simp only [if_true, JMSSender.sendNow_returns hproducer]
      rfl
    | false => exact ⟨_, .refused hpc hopen, rfl⟩
  | sessionsRemove x =>
    obtain ⟨s, rest, rfl, -⟩ := hhead x (Or.inr hpc)
    exact ⟨_, .removes hpc, rfl⟩

theorem step_effect (bufferSize : Int) (h : Ordered all f) (a : FlushStep) :
    ∃ g, Effect f a g ∧
      flushStep (system bufferSize f) a = system bufferSize g := by
  cases a with
  | stop result => exact stop_effect h result
  | delayedSender => exact delayedSender_effect h

/-! ## The order of delivery -/

omit [DecidableEq S] in
/-- The thread goes on in its first loop. -/
theorem Ordered.goto (h : Ordered all f) {pc : DelayedSenderPc S}
    {queue : List S} {sent : List (Option (Serializable S M))}
    (hpc : (¬ pc.Tested ∧ ¬ pc.InMessages) ∧ pc ≠ .ready ∧ pc ≠ .stopped)
    (hall : sent ++ (pc.unsent queue).map (some ∘ .session) = all)
    (hhead : ∀ x, pc = .sessionsSend x ∨ pc = .sessionsRemove x →
      ∃ s rest, x = some s ∧ queue = s :: rest) :
    Ordered all { f with queue, sent, self := f.self.goto pc } where
  conserved := hall
  holdsHead := hhead
  tested ht := absurd ht hpc.1.1
  inLoop := ⟨hpc.1.2, hpc.2.1⟩
  flag := h.flag
  thread := h.thread
  stopped hstopped := absurd hstopped hpc.2.2
  openBefore := h.openBefore

theorem ordered_effect (h : Ordered all f) {a : FlushStep} {g : Shutdown S M}
    (heff : Effect f a g) : Ordered all g := by
  have horder := h
  obtain ⟨hall, hhead, htested, ⟨hmessages, hready⟩, hflag, hthread, hstopped,
    hopen⟩ := h
  cases heff with
  | returned | left =>
    exact ⟨hall, hhead, htested, ⟨hmessages, hready⟩, hflag, hthread, hstopped,
      hopen⟩
  | calls _ _ hclears hthread' =>
    exact ⟨hall, hhead, htested, ⟨hmessages, hready⟩, hflag.trans hclears,
      hthread', hstopped, hopen⟩
  | clears =>
    exact ⟨hall, hhead, htested, ⟨hmessages, hready⟩, by simp [StopPc.Clears],
      by simp, fun _ => rfl, by simp⟩
  | closes hpc =>
    have hcleared : ¬ f.self.running = true := by
      rw [hflag, hpc]
      exact id
    exact ⟨hall, hhead, htested, ⟨hmessages, hready⟩,
      iff_of_false hcleared id, by simp, hstopped,
      fun h => absurd h hcleared⟩
  | @moves pc hmoves =>
    obtain ⟨⟨hfrom, -⟩, hto, hmessages', hready', -, htested', hstopped'⟩ :=
      hmoves
    refine ⟨?_, ?_, ?_, ⟨hmessages', hready'⟩, hflag, hthread, hstopped',
      hopen⟩
    · rw [DelayedSenderPc.unsent_of_not_holds hfrom] at hall
      exact (DelayedSenderPc.unsent_of_not_holds hto).symm ▸ hall
    · intro x hx
      have hpc : pc = .sessionsSend x ∨ pc = .sessionsRemove x := hx
      rcases hpc with rfl | rfl <;> exact absurd trivial hto
    · intro ht
      exact (htested' ht).elim htested id
  | peeks hpc =>
    obtain ⟨s, rest, hqueue⟩ :=
      List.exists_cons_of_ne_nil
        (htested (by simp [hpc, DelayedSenderPc.Tested]))
    rw [hpc] at hall
    refine horder.goto ⟨⟨id, id⟩, by simp, by simp⟩ hall ?_
    intro x hx
    refine ⟨s, rest, ?_, hqueue⟩
    simpa [hqueue, eq_comm] using hx
  | @delivers x hpc _ =>
    obtain ⟨s, rest, rfl, hqueue⟩ := hhead x (Or.inl hpc)
    refine horder.goto ⟨⟨id, id⟩, by simp, by simp⟩ ?_ ?_
    · have hbefore : f.sent ++ f.queue.map (some ∘ .session) = all := by
        rwa [hpc] at hall
      show f.sent ++ [some (.session s)] ++
        f.queue.tail.map (some ∘ .session) = all
      rw [hqueue] at hbefore ⊢
      simpa using hbefore
    · intro x hx
      refine ⟨s, rest, ?_, hqueue⟩
      simpa [eq_comm] using hx
  | refused hpc _ =>
    rw [hpc] at hall
    exact horder.goto ⟨⟨id, id⟩, by simp, by simp⟩ hall (by simp)
  | @removes s hpc =>
    obtain ⟨s', rest, heq, hqueue⟩ := hhead _ (Or.inr hpc)
    obtain rfl := Option.some.inj heq
    refine horder.goto ⟨⟨id, id⟩, by simp, by simp⟩ ?_ (by simp)
    have hbefore : f.sent ++ f.queue.tail.map (some ∘ .session) = all := by
      rwa [hpc] at hall
    show f.sent ++ (f.queue.erase s).map (some ∘ .session) = all
    rw [hqueue] at hbefore ⊢
    simpa using hbefore

/-! ## Once the flag is cleared -/

/-- The number of sessions that have not been sent. -/
def left (f : Shutdown S M) : Nat := (f.self.pc.unsent f.queue).length

/-- How many of them are sure to be sent although the flag is cleared. -/
def due (f : Shutdown S M) : Nat :=
  if f.self.pc.Sends = true ∧ f.isOpen = true then 1 else 0

/-- What is left will be sent. -/
def Safe (f : Shutdown S M) : Prop := f.self.running = false → left f ≤ due f

omit [DecidableEq S] in
theorem safe_of_running (h : f.self.running = true) : Safe f := by
  intro hcleared
  rw [h] at hcleared
  exact Bool.noConfusion hcleared

omit [DecidableEq S] in
theorem due_of_not_sends (h : f.self.pc.Sends = false) : due f = 0 := by
  simp [due, h]

omit [DecidableEq S] in
theorem inTime_of_other {result : JMSResult} (hclear : ¬ f.pc.Clears ∨
      f.pc = .testDelayedSender ∨ f.pc = .stopDelayedSender)
    (hclose : f.pc = .closeConnection → result = .throws) :
    InTime (system bufferSize f) (.stop result) := by
  cases hpc : f.pc with
  | clearRunning k => simp [hpc, StopPc.Clears] at hclear
  | closeConnection => simp [InTime, system, hpc, hclose hpc]
  | _ => simp [InTime, system, hpc]

omit [DecidableEq S] in
theorem inTime_clear {result : JMSResult} {k : Nat}
    (hpc : f.pc = .clearRunning k) :
    InTime (system bufferSize f) (.stop result) ↔ left f ≤ due f := by
  have hdue : underway (system bufferSize f) = due f := by
    simp [underway, due, system, Connected]
  have hcalls : (system bufferSize f).calls[0]? =
      some (.stop (.clearRunning k)) := by
    rw [← hpc]
    rfl
  simp only [InTime, hcalls, hdue]
  rfl

omit [DecidableEq S] in
theorem inTime_close (hpc : f.pc = .closeConnection) :
    InTime (system bufferSize f) (.stop .returns) ↔ left f = 0 := by
  have hcalls : (system bufferSize f).calls[0]? =
      some (.stop .closeConnection) := by
    rw [← hpc]
    rfl
  simp only [InTime, hcalls, forall_const, left, List.length_eq_zero_iff]
  rfl

omit [DecidableEq S] in
theorem safe_of_delayedSender {g : Shutdown S M}
    (hrunning : g.self.running = f.self.running)
    (h : f.self.running = false → (left g ≤ due g ↔ left f ≤ due f)) :
    Safe g ↔ Safe f ∧ InTime (system bufferSize f) .delayedSender := by
  refine Iff.trans ?_ (and_iff_left trivial).symm
  unfold Safe
  rw [hrunning]
  exact forall_congr' h

/-- What is left is safe after a step exactly when it was before and the step
is in time. -/
theorem safe_effect_iff (h : Ordered all f) {a : FlushStep}
    {g : Shutdown S M} (heff : Effect f a g) :
    Safe g ↔ Safe f ∧ InTime (system bufferSize f) a := by
  obtain ⟨-, hhead, -, -, hflag, -, -, -⟩ := h
  cases heff with
  | returned hpc =>
    exact (and_iff_left (inTime_of_other (Or.inl (by simp [hpc, StopPc.Clears]))
      (by simp [hpc]))).symm
  | left => exact (and_iff_left trivial).symm
  | calls hclear hclose _ _ =>
    refine (and_iff_left (inTime_of_other ?_ hclose)).symm
    cases hpc : f.pc with
    | clearRunning k => exact absurd hpc (hclear k)
    | _ => simp [StopPc.Clears]
  | clears hpc =>
    have hrunning : f.self.running = true := by
      rw [hflag, hpc]
      trivial
    rw [inTime_clear hpc]
    exact ⟨fun hsafe => ⟨safe_of_running hrunning, hsafe rfl⟩,
      fun hsafe _ => hsafe.2⟩
  | closes hpc =>
    have hcleared : f.self.running = false := by
      rw [Bool.eq_false_iff, ne_eq, hflag, hpc]
      exact id
    rw [inTime_close hpc]
    refine ⟨?_, ?_⟩
    · intro hsafe
      have hdue : due { f with isOpen := false, pc := .returned } = 0 := by
        simp [due]
      have hleft : left f ≤ 0 := hdue ▸ hsafe hcleared
      exact ⟨fun _ => by omega, by omega⟩
    · intro hsafe _
      show left f ≤ _
      rw [hsafe.2]
      exact Nat.zero_le _
  | @moves pc hmoves =>
    obtain ⟨⟨hfrom, hsends⟩, hto, -, -, hsends', -, -⟩ := hmoves
    have hleft : left { f with self := f.self.goto pc } = left f := by
      unfold left
      rw [DelayedSenderPc.unsent_of_not_holds hfrom]
      exact congrArg List.length (DelayedSenderPc.unsent_of_not_holds hto)
    refine safe_of_delayedSender rfl fun hcleared => ?_
    have hstill : pc.Sends = false := by
      rw [Bool.eq_false_iff]
      intro hpc
      rw [hsends' hpc] at hcleared
      exact Bool.noConfusion hcleared
    rw [hleft, due_of_not_sends hsends, due_of_not_sends hstill]
  | peeks hpc =>
    refine safe_of_delayedSender rfl fun _ => ?_
    simp [left, due, hpc, DelayedSender.goto, DelayedSenderPc.unsent,
      DelayedSenderPc.Sends]
  | @delivers x hpc hopen =>
    obtain ⟨s, rest, -, hqueue⟩ := hhead x (Or.inl hpc)
    refine safe_of_delayedSender rfl fun _ => ?_
    simp [left, due, hpc, hopen, hqueue, DelayedSender.goto,
      DelayedSenderPc.unsent, DelayedSenderPc.Sends]
  | refused hpc hopen =>
    refine safe_of_delayedSender rfl fun _ => ?_
    simp [left, due, hpc, hopen, DelayedSender.goto, DelayedSenderPc.unsent,
      DelayedSenderPc.Sends]
  | @removes s hpc =>
    obtain ⟨s', rest, heq, hqueue⟩ := hhead _ (Or.inr hpc)
    obtain rfl := Option.some.inj heq
    refine safe_of_delayedSender rfl fun _ => ?_
    simp [left, due, hpc, hqueue, DelayedSender.goto, DelayedSenderPc.unsent,
      DelayedSenderPc.Sends]

/-! ## Runs -/

variable {sessions : List S} {sent : List (Option (Serializable S M))}

/-- A reachable state is a shutdown whose accounts balance. -/
theorem run_system (bufferSize : Int) (sessions : List S)
    (sent : List (Option (Serializable S M))) (steps : List FlushStep) :
    ∃ f, Ordered (sent ++ sessions.map (some ∘ .session)) f ∧
      (machine bufferSize sessions sent).run steps = system bufferSize f := by
  induction steps using List.reverseRecOn with
  | nil =>
    refine ⟨{ queue := sessions, sent }, ?_, rfl⟩
    exact ⟨rfl, by simp, False.elim, ⟨id, nofun⟩, by simp [StopPc.Clears],
      nofun, nofun, fun _ => rfl⟩
  | append_singleton steps a ih =>
    obtain ⟨f, hf, hrun⟩ := ih
    obtain ⟨g, heff, hstep⟩ := step_effect bufferSize hf a
    refine ⟨g, ordered_effect hf heff, ?_⟩
    rw [Machine.run_snoc, hrun]
    exact hstep

/-- What is left once the flag is cleared will be sent. -/
def OnTime (σ : SenderSystem S M) : Prop :=
  ∀ d ∈ σ.delayedSenders[0]?, d.running = false →
    (unsent σ).length ≤ underway σ

omit [DecidableEq S] in
theorem onTime_system : OnTime (system bufferSize f) ↔ Safe f := by
  have hdue : underway (system bufferSize f) = due f := by
    simp [underway, due, system, Connected]
  unfold OnTime Safe
  rw [hdue]
  exact ⟨fun h => h f.self rfl, fun h d hd => Option.some.inj hd ▸ h⟩

theorem onTime_step_iff (steps : List FlushStep) (a : FlushStep) :
    OnTime (flushStep ((machine bufferSize sessions sent).run steps) a) ↔
      OnTime ((machine bufferSize sessions sent).run steps) ∧
        InTime ((machine bufferSize sessions sent).run steps) a := by
  obtain ⟨f, hf, hrun⟩ := run_system bufferSize sessions sent steps
  obtain ⟨g, heff, hstep⟩ := step_effect bufferSize hf a
  rw [hrun, hstep, onTime_system, onTime_system]
  exact safe_effect_iff hf heff

/-- What is too late stays too late. -/
theorem onTime_of_append {before after : List FlushStep}
    (h : OnTime ((machine bufferSize sessions sent).run (before ++ after))) :
    OnTime ((machine bufferSize sessions sent).run before) := by
  induction after using List.reverseRecOn with
  | nil => rwa [List.append_nil] at h
  | append_singleton after a ih =>
    rw [← List.append_assoc, Machine.run_snoc] at h
    exact ih ((onTime_step_iff _ a).mp h).1

/-- A thread that has left its loop has sent everything exactly when nothing is
left. -/
theorem flushed_iff_onTime {steps : List FlushStep}
    (h : Left ((machine bufferSize sessions sent).run steps)) :
    Flushed sessions sent ((machine bufferSize sessions sent).run steps) ↔
      OnTime ((machine bufferSize sessions sent).run steps) := by
  obtain ⟨f, hf, hrun⟩ := run_system bufferSize sessions sent steps
  rw [hrun] at h ⊢
  have hpc : f.self.pc = .stopped := h f.self (List.mem_singleton_self _)
  have hconserved := hf.conserved
  rw [hpc] at hconserved
  have hleft : left f = f.queue.length := by
    unfold left
    rw [hpc]
    rfl
  have hdue : due f = 0 := due_of_not_sends (by rw [hpc]; rfl)
  rw [onTime_system]
  unfold Safe Flushed
  rw [← hconserved, hleft, hdue, imp_iff_right (hf.stopped hpc)]
  show f.sent = f.sent ++ f.queue.map _ ↔ _
  rw [List.self_eq_append_right, List.map_eq_nil_iff, Nat.le_zero,
    List.length_eq_zero_iff]

/-- A stopping sender gets rid of its buffer exactly when the thread is fast
enough: only a session whose send is under way is left when the flag is cleared,
and none when the connection is closed. -/
theorem flushed_iff_in_time (bufferSize : Int) (sessions : List S)
    (sent : List (Option (Serializable S M))) (steps : List FlushStep)
    (h : Left ((machine bufferSize sessions sent).run steps)) :
    Flushed sessions sent ((machine bufferSize sessions sent).run steps) ↔
      (machine bufferSize sessions sent).Along InTime steps := by
  rw [flushed_iff_onTime h, ← Machine.forall_prefix_iff_along
    (machine bufferSize sessions sent) (I := OnTime) (C := InTime)]
  · refine ⟨?_, fun hall => hall steps (List.prefix_refl steps)⟩
    intro hlast before hbefore
    obtain ⟨after, rfl⟩ := hbefore
    exact onTime_of_append hlast
  · exact onTime_system.mpr (safe_of_running rfl)
  · intro before a hbefore
    exact (onTime_step_iff before a).trans (and_iff_right hbefore)

/-- The thread sends the session first, and then `stop` goes on. -/
theorem flushed_one_session :
    Flushed [1] [] ((machine (M := Nat) 10 [1] []).run
      (List.replicate 7 .delayedSender ++ List.replicate 5 (.stop .returns) ++
        List.replicate 4 .delayedSender)) ↔
      (machine (M := Nat) 10 [1] []).Along InTime
        (List.replicate 7 .delayedSender ++ List.replicate 5 (.stop .returns) ++
          List.replicate 4 .delayedSender) :=
  flushed_iff_in_time 10 [1] [] _ (by unfold Left; decide)

/-- `stop` is done before the thread wakes up. -/
theorem stop_loses_session :
    ¬ ∀ (sessions : List Nat) (steps : List FlushStep),
      Left ((machine (M := Nat) 10 sessions []).run steps) →
        Flushed sessions []
          ((machine (M := Nat) 10 sessions []).run steps) := by
  intro h
  have hflushed := h [1] (List.replicate 5 (.stop .returns) ++
    List.replicate 3 .delayedSender) (by unfold Left; decide)
  exact absurd hflushed (by unfold Flushed; decide)

end Shutdown

end Sipana
