import Sipana.Sender.Accounting

/-!
# At most once and in order

`DelayedBuffer` follows a sender that runs and whose producer takes everything.
Here sends may fail, `start`, `stop` and `onException` may change the state, the
JMS objects and the flag of the delayed sender at any moment, and a delayed
sender whose thread has ended may be followed by a new one. Sessions may then be
lost. What remains, with one caller and one delayed sender at a time, is that
the producer is given sessions in the order in which the buffer accepted them,
and none of them twice.

That a new delayed sender waits for the end of the old thread is an assumption:
`startDelayedSender` has no such guard. `BufferedSender` has the whole sender,
and says what the assumption is worth.
-/

namespace Sipana

/-- Who moves next. -/
inductive ThreadStep
  | caller (result : JMSResult)
  | delayedSender (result : JMSResult)
  /-- Other methods assign to the state and to the JMS objects. -/
  | assign (state : SenderState) (session producer : Option Nat)
  /-- `DelayedSender.stop`, or the beginning of `run`. -/
  | setRunning (running : Bool)
  /-- A new delayed sender, after the thread of the old one has ended. The code
  does not wait for that. -/
  | startDelayedSender
deriving DecidableEq, Repr

/-- The caller enters `send`, or some thread moves. -/
inductive OutageStep (S M : Type)
  | send (object : Serializable S M)
  | thread (step : ThreadStep)
deriving DecidableEq, Repr

namespace DelayedBuffer

variable {S M : Type}

/-- One step of `send`, where the producer may throw. -/
def callerStepWith (result : JMSResult) (σ : DelayedBuffer S M) :
    DelayedBuffer S M :=
  match σ.caller with
  | .sendNow message =>
    (σ.assign fun s => (s.sendNow result (some (.message message))).1).goto
      .idle
  | _ => σ.callerStep

variable [DecidableEq S]

/-- One step of the delayed sender, where the producer may throw. -/
def delayedSenderStepWith (result : JMSResult) (σ : DelayedBuffer S M) :
    DelayedBuffer S M :=
  let (sender, d) := σ.delayedSender.step result σ.sender
  { σ with sender := sender, delayedSender := d }

def threadStep (σ : DelayedBuffer S M) : ThreadStep → DelayedBuffer S M
  | .caller result => σ.callerStepWith result
  | .delayedSender result => σ.delayedSenderStepWith result
  | .assign state session producer =>
    σ.assign ({ · with state, session, producer })
  | .setRunning running =>
    { σ with delayedSender := { σ.delayedSender with running } }
  | .startDelayedSender =>
    if σ.delayedSender.pc = .stopped then { σ with delayedSender := {} } else σ

def outageStep (σ : DelayedBuffer S M) : OutageStep S M → DelayedBuffer S M
  | .send object => σ.enter object
  | .thread step => σ.threadStep step

/-- A sender in delayed mode, as its constructor leaves it. -/
def outageMachine (bufferSize : Int) :
    Machine (DelayedBuffer S M) (OutageStep S M) :=
  ⟨{ sender := { isDelayed := true, bufferSize } }, outageStep⟩

end DelayedBuffer

/-! ## The session in the hands of the delayed sender -/

namespace DelayedSenderPc

variable {S : Type}

/-- The session that has been read and not been sent. -/
def sending : DelayedSenderPc S → Option S
  | .sessionsSend session | .messagesSend session => session
  | _ => none

/-- The session that has been sent and not been removed. -/
def removing : DelayedSenderPc S → Option S
  | .sessionsRemove session | .messagesRemove session => session
  | _ => none

end DelayedSenderPc

namespace DelayedSender

variable {S M : Type} [DecidableEq S]

/-- What the thread does to the sender: it moves, reading the head of the queue
at most; it sends what it has read; or it removes what it has sent. -/
inductive Effect (σ : JMSSender S M) (self : DelayedSender S) :
    JMSSender S M → DelayedSender S → Prop
  | moves {d : DelayedSender S} : self.pc.removing = none →
      d.pc.removing = none →
      (d.pc.sending = none ∨ d.pc.sending = σ.sessions.head?) →
      Effect σ self σ d
  | sends {d : DelayedSender S} : self.pc.removing = none →
      d.pc.sending = none → d.pc.removing = self.pc.sending →
      Effect σ self
        { σ with sent := σ.sent ++ [self.pc.sending.map .session] } d
  | removes {d : DelayedSender S} : d.pc.sending = none →
      d.pc.removing = none → Effect σ self (remove σ self.pc.removing) d

theorem step_effect (result : JMSResult) (σ : JMSSender S M)
    (self : DelayedSender S) :
    Effect σ self (self.step result σ).1 (self.step result σ).2 := by
  unfold step
  cases hpc : self.pc with
  | ready | waiting =>
    exact .moves (by rw [hpc]; rfl) rfl (Or.inl rfl)
  | stopped =>
    exact .moves (by rw [hpc]; rfl) (by rw [hpc]; rfl)
      (Or.inl (by rw [hpc]; rfl))
  | sessionsPeek | messagesPeek =>
    exact .moves (by rw [hpc]; rfl) rfl (Or.inr rfl)
  | sessionsSend x =>
    rcases σ.sendNow_cases result (x.map .session) with h | h
    · simp only [h]
      have hsends : Effect σ self _ (self.goto (.sessionsRemove x)) :=
        .sends (by rw [hpc]; rfl) rfl (by rw [hpc]; rfl)
      rwa [hpc] at hsends
    · simp only [h]
      exact .moves (by rw [hpc]; rfl) rfl (Or.inl rfl)
  | messagesSend x =>
    rcases σ.sendNow_cases result (x.map .session) with h | h
    · simp only [h]
      have hsends : Effect σ self _ (self.goto (.messagesRemove x)) :=
        .sends (by rw [hpc]; rfl) rfl (by rw [hpc]; rfl)
      rwa [hpc] at hsends
    · simp only [h]
      exact .moves (by rw [hpc]; rfl) rfl (Or.inl rfl)
  | sessionsRemove x =>
    have hremoves : Effect σ self _ (self.goto .sessionsSize) :=
      .removes rfl rfl
    rwa [hpc] at hremoves
  | messagesRemove x =>
    have hremoves : Effect σ self _ (self.goto .messagesSize) :=
      .removes rfl rfl
    rwa [hpc] at hremoves
  | loopGuard | checkRunning | sessionsSize | sessionsRunning | messagesSize
  | messagesRunning =>
    simp only
    split <;> exact .moves (by rw [hpc]; rfl) rfl (Or.inl rfl)

end DelayedSender

namespace DelayedBuffer

variable {S M : Type} [DecidableEq S] {σ : DelayedBuffer S M}

/-! ## The order of the sessions -/

/-- The queue without the session that has been sent already. -/
def unremoved (σ : DelayedBuffer S M) : List S :=
  match σ.delayedSender.pc.removing with
  | some s => σ.sender.sessions.erase s
  | none => σ.sender.sessions

/-- The sessions that were delivered and those that wait are in the order of
acceptance, and so is the session that is about to be sent. -/
structure InOrder (σ : DelayedBuffer S M) : Prop where
  waits : (σ.delivered ++ σ.unremoved).Sublist σ.accepted
  sends : ∀ s, σ.delayedSender.pc.sending = some s →
    (σ.delivered ++ s :: σ.sender.sessions.erase s).Sublist σ.accepted

theorem erase_tail_sublist (l : List S) (s : S) :
    (l.tail.erase s).Sublist (l.erase s) := by
  cases l with
  | nil => exact List.Sublist.refl _
  | cons x l =>
    by_cases hx : x = s
    · subst hx
      rw [List.tail_cons, List.erase_cons_head]
      exact List.erase_sublist
    · rw [List.tail_cons, List.erase_cons_tail (by simpa using hx)]
      exact List.sublist_cons_self _ _

theorem erase_append_sublist (l : List S) (s t : S) :
    ((l ++ [t]).erase s).Sublist (l.erase s ++ [t]) := by
  rw [List.erase_append]
  split
  · exact List.Sublist.refl _
  · next hs =>
    rw [List.erase_of_not_mem hs]
    exact List.erase_sublist.append_left l

/-- A poll. -/
theorem InOrder.polls (h : InOrder σ) (pc : SendPc S M) :
    InOrder ((σ.assign fun s => { s with sessions := s.sessions.tail }).goto
      pc) := by
  obtain ⟨hwaits, hsends⟩ := h
  refine ⟨?_, ?_⟩
  · refine List.Sublist.trans (List.Sublist.append_left ?_ _) hwaits
    unfold unremoved
    simp only [goto, assign]
    split
    · exact erase_tail_sublist _ _
    · exact List.tail_sublist _
  · intro s hs
    refine List.Sublist.trans (List.Sublist.append_left ?_ _) (hsends s hs)
    exact (erase_tail_sublist _ s).cons_cons s

/-- A session is put into the buffer. -/
theorem InOrder.adds (h : InOrder σ) (t : S) :
    InOrder { σ with
      sender := { σ.sender with sessions := σ.sender.sessions ++ [t] }
      caller := .idle
      accepted := σ.accepted ++ [t] } := by
  obtain ⟨hwaits, hsends⟩ := h
  refine ⟨?_, ?_⟩
  · have hlonger := hwaits.append (List.Sublist.refl [t])
    rw [List.append_assoc] at hlonger
    refine List.Sublist.trans (List.Sublist.append_left ?_ _) hlonger
    unfold unremoved
    simp only
    split
    · exact erase_append_sublist _ _ t
    · exact List.Sublist.refl _
  · intro s hs
    have hlonger := (hsends s hs).append (List.Sublist.refl [t])
    rw [List.append_assoc, List.cons_append] at hlonger
    refine List.Sublist.trans (List.Sublist.append_left ?_ _) hlonger
    exact (erase_append_sublist _ s t).cons_cons s

/-- A step that leaves the sessions and the delayed sender alone. -/
theorem InOrder.frame {τ : DelayedBuffer S M} (h : InOrder σ)
    (hsessions : τ.sender.sessions = σ.sender.sessions)
    (hdelivered : τ.delivered = σ.delivered)
    (hpc : τ.delayedSender.pc = σ.delayedSender.pc)
    (haccepted : τ.accepted = σ.accepted) : InOrder τ := by
  obtain ⟨hwaits, hsends⟩ := h
  refine ⟨?_, ?_⟩
  · rwa [unremoved, hpc, hsessions, hdelivered, haccepted]
  · intro s hs
    rw [hpc] at hs
    rw [hdelivered, hsessions, haccepted]
    exact hsends s hs

omit [DecidableEq S] in
/-- A standalone message is no session. -/
theorem delivered_sendMessage (result : JMSResult) (σ : DelayedBuffer S M)
    (m : M) :
    ((σ.sender.sendNow result (some (.message m))).1.sent.filterMap
      session?) = σ.delivered := by
  rcases σ.sender.sendNow_cases result (some (.message m)) with
    h | h
  · rw [h]
    simp [delivered, session?]
  · rw [h]
    rfl

theorem inOrder_caller (h : InOrder σ) (result : JMSResult) :
    InOrder (σ.callerStepWith result) := by
  unfold callerStepWith callerStep
  cases hpc : σ.caller with
  | idle => exact h
  | testOverflow s | increment s | testRunning m | addMessage m =>
    exact h.frame rfl rfl rfl rfl
  | poll s => exact h.polls _
  | add s => exact h.adds s
  | sendNow m =>
    have hframe := σ.sender.sendNow_frame result (some (.message m))
    obtain ⟨sent, hsent⟩ := hframe
    refine h.frame ?_ (delivered_sendMessage result σ m) rfl rfl
    simp only [goto, assign, hsent]

theorem inOrder_delayedSender (h : InOrder σ) (result : JMSResult) :
    InOrder (σ.delayedSenderStepWith result) := by
  have heff := DelayedSender.step_effect result σ.sender σ.delayedSender
  unfold delayedSenderStepWith
  simp only
  generalize (σ.delayedSender.step result σ.sender).1 = sender,
    (σ.delayedSender.step result σ.sender).2 = d at heff
  obtain ⟨hwaits, hsends⟩ := h
  cases heff with
  | moves hbefore hafter hsending =>
    have hqueue : (σ.delivered ++ σ.sender.sessions).Sublist σ.accepted := by
      rwa [unremoved, hbefore] at hwaits
    refine ⟨?_, ?_⟩
    · rw [unremoved]
      simp only [hafter]
      exact hqueue
    · intro s hs
      rcases hsending with hnone | hhead
      · exact absurd (hnone.symm.trans hs) nofun
      · -- the head is what was read
        obtain ⟨rest, hrest⟩ := List.head?_eq_some_iff.mp
          (hhead.symm.trans hs)
        show (σ.delivered ++ s :: σ.sender.sessions.erase s).Sublist σ.accepted
        rw [hrest] at hqueue ⊢
        rwa [List.erase_cons_head]
  | sends hbefore hnone hafter =>
    refine ⟨?_, fun s hs => absurd (hnone.symm.trans hs) nofun⟩
    have hqueue : (σ.delivered ++ σ.sender.sessions).Sublist σ.accepted := by
      rwa [unremoved, hbefore] at hwaits
    unfold unremoved delivered
    rw [hafter]
    cases hs : σ.delayedSender.pc.sending with
    | none =>
      have hnull : (σ.sender.sent ++ [(none : Option (Serializable S M))]
          ).filterMap session? = σ.delivered := by
        rw [List.filterMap_append]
        exact List.append_nil _
      show (List.Sublist (_ ++ σ.sender.sessions) σ.accepted)
      rwa [Option.map_none, hnull]
    | some s => simpa [session?, delivered] using hsends s hs
  | removes hnone hafter =>
    refine ⟨?_, fun s hs => absurd (hnone.symm.trans hs) nofun⟩
    unfold unremoved at hwaits ⊢
    rw [hafter]
    cases hs : σ.delayedSender.pc.removing with
    | none =>
      rw [hs] at hwaits
      exact hwaits
    | some s =>
      rw [hs] at hwaits
      exact hwaits

theorem inOrder_enter (h : InOrder σ)
    (object : Serializable S M) : InOrder (σ.enter object) := by
  unfold enter
  split <;> exact h.frame rfl rfl rfl rfl

theorem inOrder_thread (h : InOrder σ) (a : ThreadStep) :
    InOrder (σ.threadStep a) := by
  cases a with
  | caller result => exact inOrder_caller h result
  | delayedSender result => exact inOrder_delayedSender h result
  | assign state session producer => exact h.frame rfl rfl rfl rfl
  | setRunning running => exact h.frame rfl rfl rfl rfl
  | startDelayedSender =>
    show InOrder (if _ then _ else _)
    split
    · next hstopped =>
      obtain ⟨hwaits, -⟩ := h
      refine ⟨?_, fun s hs => absurd hs nofun⟩
      rwa [unremoved, hstopped] at hwaits
    · exact h

end DelayedBuffer

/-! ## Standalone messages -/

/-- The standalone message in the hands of `send`. -/
def SendPc.held {S M : Type} : SendPc S M → List M
  | .testRunning m | .sendNow m | .addMessage m => [m]
  | _ => []

namespace DelayedBuffer

variable {S M : Type}

def message? : Option (Serializable S M) → Option M
  | some (.message m) => some m
  | _ => none

theorem session?_eq_some {x : Option (Serializable S M)} {s : S} :
    session? x = some s ↔ x = some (.session s) := by
  unfold session?
  split
  · simp
  · next hne =>
    simp only [reduceCtorEq, false_iff]
    exact hne s

theorem message?_eq_some {x : Option (Serializable S M)} {m : M} :
    message? x = some m ↔ x = some (.message m) := by
  unfold message?
  split
  · simp
  · next hne =>
    simp only [reduceCtorEq, false_iff]
    exact hne m

theorem count_session [DecidableEq S] [DecidableEq M]
    (l : List (Option (Serializable S M))) (s : S) :
    l.count (some (.session s)) = (l.filterMap session?).count s := by
  rw [List.count_filterMap, List.count]
  refine List.countP_congr fun x _ => ?_
  simp [session?_eq_some]

theorem count_message [DecidableEq S] [DecidableEq M]
    (l : List (Option (Serializable S M))) (m : M) :
    l.count (some (.message m)) = (l.filterMap message?).count m := by
  rw [List.count_filterMap, List.count]
  refine List.countP_congr fun x _ => ?_
  simp [message?_eq_some]

/-- The standalone messages the producer has taken, in order. -/
def passed (σ : DelayedBuffer S M) : List M := σ.sender.sent.filterMap message?

variable [DecidableEq S]

omit [DecidableEq S] in
theorem passed_enter {σ : DelayedBuffer S M} (h : σ.caller = .idle)
    (x : Serializable S M) :
    (σ.enter x).passed ++ (σ.enter x).caller.held =
      σ.passed ++ [some x].filterMap message? := by
  cases x <;> simp [enter, h, goto, passed, SendPc.held, message?]

/-- Threads append to what the producer has taken. -/
theorem sent_prefix_thread (σ : DelayedBuffer S M) (a : ThreadStep) :
    σ.sender.sent <+: (σ.threadStep a).sender.sent := by
  cases a with
  | caller result =>
    show _ <+: (σ.callerStepWith result).sender.sent
    unfold callerStepWith callerStep
    cases σ.caller with
    | sendNow m =>
      rcases σ.sender.sendNow_cases result
        (some (.message m)) with h | h
      · simp only [goto, assign, h]
        exact List.prefix_append _ _
      · simp only [goto, assign, h]
        exact List.prefix_rfl
    | _ => exact List.prefix_rfl
  | delayedSender result =>
    have heff := DelayedSender.step_effect result σ.sender σ.delayedSender
    show _ <+: (σ.delayedSender.step result σ.sender).1.sent
    generalize (σ.delayedSender.step result σ.sender).1 = sender,
      (σ.delayedSender.step result σ.sender).2 = d at heff
    cases heff with
    | moves => exact List.prefix_rfl
    | sends => exact List.prefix_append _ _
    | removes => cases σ.delayedSender.pc.removing <;> exact List.prefix_rfl
  | assign | setRunning => exact List.prefix_rfl
  | startDelayedSender =>
    show _ <+: (if _ then _ else _ : DelayedBuffer S M).sender.sent
    split <;> exact List.prefix_rfl

/-- No thread makes up a standalone message. -/
theorem passed_thread (σ : DelayedBuffer S M) (a : ThreadStep) :
    ((σ.threadStep a).passed ++ (σ.threadStep a).caller.held).Sublist
      (σ.passed ++ σ.caller.held) := by
  cases a with
  | caller result =>
    show ((σ.callerStepWith result).passed ++
      (σ.callerStepWith result).caller.held).Sublist _
    unfold callerStepWith callerStep
    cases hpc : σ.caller with
    | sendNow m =>
      rcases σ.sender.sendNow_cases result
        (some (.message m)) with h | h
      · simp [passed, goto, assign, h, message?, SendPc.held]
      · simp [passed, goto, assign, h, SendPc.held]
    | testRunning m =>
      simp only [goto]
      split <;> exact List.Sublist.refl _
    | testOverflow s =>
      simp only [goto]
      split <;> exact List.Sublist.refl _
    | addMessage m => exact (List.nil_sublist _).append_left _
    | idle =>
      simp only [hpc]
      exact List.Sublist.refl _
    | increment s | poll s | add s => exact List.Sublist.refl _
  | delayedSender result =>
    have heff := DelayedSender.step_effect result σ.sender σ.delayedSender
    have hpassed : (σ.delayedSender.step result σ.sender).1.sent.filterMap
        message? = σ.passed := by
      generalize (σ.delayedSender.step result σ.sender).1 = sender,
        (σ.delayedSender.step result σ.sender).2 = d at heff
      cases heff with
      | moves => rfl
      | sends =>
        cases σ.delayedSender.pc.sending <;> simp [passed, message?]
      | removes => cases σ.delayedSender.pc.removing <;> rfl
    show List.Sublist (_ ++ σ.caller.held) _
    rw [← hpassed]
    exact List.Sublist.refl _
  | assign | setRunning => exact List.Sublist.refl _
  | startDelayedSender =>
    simp only [threadStep]
    split <;> exact List.Sublist.refl _

end DelayedBuffer

end Sipana
