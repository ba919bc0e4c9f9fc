import Sipana.Lib.Loop
import Sipana.Sender.Accounting

/-!
# Sends that fail

A pass of the delayed sender peeks, sends and removes, so that a session whose
send throws stays at the head of the queue. Between the passes the buffer may
overflow and drop its oldest sessions. Whatever fails, what has been delivered
and what is still queued are the accepted sessions in order, less the discarded
ones; and these are counted, as far as an `int` can.
-/

namespace Sipana

namespace DelayedSender

variable {S M : Type} [DecidableEq S]

/-! ## Passes in which a send may throw -/

/-- The loop over the sessions. `results n` is how the call number `n` of the
producer ends. -/
def drainSessions (results : Nat → JMSResult) (n : Nat) (σ : JMSSender S M) :
    List S → JMSSender S M
  | [] => σ
  | session :: queue =>
    match σ.sendNow (results n) (some (.session session)) with
    | (σ, .returns) =>
      drainSessions results (n + 1) (remove σ (some session)) queue
    | (σ, .throws) => σ

/-- A pass over a buffer without standalone messages. -/
def drainPass (results : Nat → JMSResult) (σ : JMSSender S M) : JMSSender S M :=
  drainSessions results 0 σ σ.sessions

/-- The thread is about to call the producer. -/
def CallsProducer : DelayedSenderPc S → Bool
  | .sessionsSend _ | .messagesSend _ => true
  | _ => false

/-- One step of the thread; the number counts its calls of the producer. -/
def countedStep (results : Nat → JMSResult)
    (c : (JMSSender S M × DelayedSender S) × Nat) :
    (JMSSender S M × DelayedSender S) × Nat :=
  (step (results c.2) c.1.1 c.1.2,
    if CallsProducer c.1.2.pc then c.2 + 1 else c.2)

variable {results : Nat → JMSResult} {σ : JMSSender S M}

omit [DecidableEq S] in
theorem sendNow_throws (σ : JMSSender S M)
    (object : Option (Serializable S M)) :
    σ.sendNow .throws object = (σ, .throws) := by
  unfold JMSSender.sendNow
  split <;> rfl

/-- What the loop has done when it ends: it has sent the sessions before the
first one that the producer refuses, and removed them. -/
theorem drainSessions_spec (results : Nat → JMSResult) (h : σ.HasProducer)
    {queue : List S} (n : Nat)
    (hσ : σ.sessions = queue) :
    ∃ k ≤ queue.length, (∀ i < k, results (n + i) = .returns) ∧
      (k < queue.length → results (n + k) = .throws) ∧
      drainSessions results n σ queue =
        { σ with
          sessions := queue.drop k
          sent := σ.sent ++ (queue.take k).map (some ∘ .session) } := by
  induction queue generalizing σ n with
  | nil =>
    refine ⟨0, Nat.le_refl 0, nofun, nofun, ?_⟩
    have hsame : { σ with sessions := [] } = σ := by rw [← hσ]
    simp [drainSessions, hsame]
  | cons session queue ih =>
    unfold drainSessions
    cases hresult : results n with
    | throws =>
      refine ⟨0, Nat.zero_le _, nofun, fun _ => hresult, ?_⟩
      have hsame : { σ with sessions := session :: queue } = σ := by rw [← hσ]
      simp [sendNow_throws, hsame]
    | returns =>
      obtain ⟨k, hk, hreturns, hthrows, heq⟩ := ih (n := n + 1)
        (σ := { σ with
          sessions := queue
          sent := σ.sent ++ [some (.session session)] }) h rfl
      refine ⟨k + 1, Nat.succ_le_succ hk, ?_, ?_, ?_⟩
      · intro i hi
        cases i with
        | zero => exact hresult
        | succ i =>
          have hnext := hreturns i (Nat.lt_of_succ_lt_succ hi)
          rwa [Nat.add_assoc, Nat.add_comm 1 i] at hnext
      · intro hlt
        have hnext := hthrows (Nat.lt_of_succ_lt_succ hlt)
        rwa [Nat.add_assoc, Nat.add_comm 1 k] at hnext
      · simp only [σ.sendNow_returns h, remove, hσ, List.erase_cons_head]
        rw [heq]
        simp

/-- `drainPass` is what the thread does from its wait to the loop guard. -/
theorem reaches_drainSessions (results : Nat → JMSResult) (h : σ.HasProducer)
    (hmessages : σ.messages = [])
    {queue : List S} (n : Nat) (hσ : σ.sessions = queue) :
    ∃ m, Loop.Reaches (countedStep results) (fun c => c.1.2.pc = .loopGuard)
      ((σ, ⟨true, .sessionsSize⟩), n)
      ((drainSessions results n σ queue, ⟨true, .loopGuard⟩), m) := by
  induction queue generalizing σ n with
  | nil =>
    refine ⟨n, .next (b := ((σ, ⟨true, .messagesSize⟩), n)) (by simp)
      (by simp [countedStep, step, goto, hσ, CallsProducer]) ?_⟩
    exact .next (by simp) (by
      simp [countedStep, step, goto, hmessages, CallsProducer, drainSessions])
      (.refl _)
  | cons session queue ih =>
    have hpeek : Loop.Reaches (countedStep results)
        (fun c => c.1.2.pc = .loopGuard) ((σ, ⟨true, .sessionsSize⟩), n)
        ((σ, ⟨true, .sessionsSend (some session)⟩), n) := by
      refine .next (b := ((σ, ⟨true, .sessionsRunning⟩), n)) (by simp)
        (by simp [countedStep, step, goto, hσ, CallsProducer]) ?_
      refine .next (b := ((σ, ⟨true, .sessionsPeek⟩), n)) (by simp)
        (by simp [countedStep, step, goto, isRunning, CallsProducer]) ?_
      exact .next (by simp)
        (by simp [countedStep, step, goto, hσ, CallsProducer]) (.refl _)
    unfold drainSessions
    cases hresult : results n with
    | throws =>
      refine ⟨n + 1, hpeek.trans (.next (by simp) ?_ (.refl _))⟩
      simp [countedStep, step, goto, hresult, sendNow_throws, CallsProducer]
    | returns =>
      obtain ⟨m, hrest⟩ := ih (n := n + 1)
        (σ := { σ with
          sessions := queue
          sent := σ.sent ++ [some (.session session)] }) h hmessages rfl
      refine ⟨m, hpeek.trans ?_⟩
      refine .next (b := (({ σ with
          sent := σ.sent ++ [some (.session session)] },
          ⟨true, .sessionsRemove (some session)⟩), n + 1)) (by simp) (by
        simp [countedStep, step, goto, hresult, σ.sendNow_returns h,
          CallsProducer]) ?_
      refine .next (b := (({ σ with
          sessions := queue
          sent := σ.sent ++ [some (.session session)] },
          ⟨true, .sessionsSize⟩), n + 1)) (by simp) (by
        simp [countedStep, step, goto, remove, hσ, CallsProducer]) ?_
      simpa [σ.sendNow_returns h, remove, hσ] using hrest

theorem reaches_drainPass (h : σ.HasProducer) (hmessages : σ.messages = []) :
    ∃ m, Loop.Reaches (countedStep results) (fun c => c.1.2.pc = .loopGuard)
      ((σ, ⟨true, .waiting⟩), 0)
      ((drainPass results σ, ⟨true, .loopGuard⟩), m) := by
  obtain ⟨m, hreach⟩ := reaches_drainSessions results h hmessages 0 rfl
  refine ⟨m, .next (b := ((σ, ⟨true, .checkRunning⟩), 0)) nofun rfl ?_⟩
  exact .next (b := ((σ, ⟨true, .sessionsSize⟩), 0)) nofun rfl hreach

/-- A pass whose call number `n` is the first to throw takes `n` sessions. -/
theorem drainPass_throws (h : σ.HasProducer) {n : Nat}
    (hn : n < σ.sessions.length) (hbefore : ∀ i < n, results i = .returns)
    (hthrows : results n = .throws) :
    drainPass results σ =
      { σ with
        sessions := σ.sessions.drop n
        sent := σ.sent ++ (σ.sessions.take n).map (some ∘ .session) } := by
  obtain ⟨k, hk, hreturns, hstops, heq⟩ :=
    drainSessions_spec results h 0 rfl
  simp only [Nat.zero_add] at hreturns hstops
  have hkn : k = n := by
    rcases Nat.lt_trichotomy k n with hlt | heq | hgt
    · have hreturn := hbefore k hlt
      rw [hstops (Nat.lt_trans hlt hn)] at hreturn
      exact absurd hreturn nofun
    · exact heq
    · have hreturn := hreturns n hgt
      rw [hthrows] at hreturn
      exact absurd hreturn nofun
  rw [drainPass, heq, hkn]

end DelayedSender

/-! ## Sends and passes in turn -/

/-- A call of `send(SIPSession)` or a pass of the delayed sender. -/
inductive PassAction (S : Type)
  | send (session : S)
  | pass (results : Nat → JMSResult)

namespace PassAction

variable {S M : Type} [DecidableEq S]

/-- The sessions the buffer has accepted. -/
def accepted (actions : List (PassAction S)) : List S :=
  actions.filterMap fun
    | .send session => some session
    | .pass _ => none

def step (σ : JMSSender S M) : PassAction S → JMSSender S M
  | .send session => (σ.sendSession .returns session).1
  | .pass results => DelayedSender.drainPass results σ

/-- A sender in delayed mode, as a successful `start` leaves it. -/
def machine (bufferSize : Int) : Machine (JMSSender S M) (PassAction S) :=
  ⟨(DelayedBuffer.new bufferSize).sender, step⟩

/-- The sessions the producer has taken. -/
def delivered (σ : JMSSender S M) : List S :=
  σ.sent.filterMap DelayedBuffer.session?

/-- How many accepted sessions are neither delivered nor queued. -/
def missing (actions : List (PassAction S)) (σ : JMSSender S M) : Nat :=
  (accepted actions).length - (delivered σ ++ σ.sessions).length

/-- What was delivered and what is queued are the accepted sessions in order,
each at most as often as it was accepted; those that are missing are the
discarded ones, modulo 2^32; the next pass is what the thread does from its wait
to the loop guard; and it takes what it sends before a send throws. -/
structure NothingLost (actions : List (PassAction S)) (σ : JMSSender S M) :
    Prop where
  inOrder : (delivered σ ++ σ.sessions).Sublist (accepted actions)
  once : ∀ s, (delivered σ ++ σ.sessions).count s ≤ (accepted actions).count s
  counter : σ.getDiscardedSessions = Int32.ofNat (missing actions σ)
  passes : ∀ results, ∃ m,
    Loop.Reaches (DelayedSender.countedStep results)
      (fun c => c.1.2.pc = .loopGuard) ((σ, ⟨true, .waiting⟩), 0)
      ((step σ (.pass results), ⟨true, .loopGuard⟩), m)
  stops : ∀ results n, n < σ.sessions.length →
    (∀ i < n, results i = .returns) → results n = .throws →
    (step σ (.pass results)).sessions = σ.sessions.drop n ∧
      delivered (step σ (.pass results)) =
        delivered σ ++ σ.sessions.take n

/-! ## The invariant -/

/-- A sender that stores sessions and can send them. -/
structure Buffering (bufferSize : Int) (σ : JMSSender S M) : Prop where
  isDelayed : σ.isDelayed = true
  hasProducer : σ.HasProducer
  messages : σ.messages = []
  bufferSize : σ.bufferSize = bufferSize

/-- The queue of a sender and its history. -/
def fifo (accepted : List S) (dropped : Nat) (σ : JMSSender S M) : Fifo S where
  accepted
  waiting := σ.sessions
  delivered := delivered σ
  dropped

/-- What is dropped is counted, in an `int`. -/
structure Kept (accepted : List S) (dropped : Nat) (σ : JMSSender S M) :
    Prop where
  sound : (fifo accepted dropped σ).Sound
  counter : σ.getDiscardedSessions = Int32.ofNat dropped

omit [DecidableEq S] in
theorem delivered_append (σ : JMSSender S M) (sessions : List S) :
    delivered { σ with
      sent := σ.sent ++ sessions.map (some ∘ .session) } =
      delivered σ ++ sessions := by
  have hsessions : (sessions.map (some ∘ Serializable.session (M := M))
      ).filterMap DelayedBuffer.session? = sessions := by
    rw [List.filterMap_map]
    exact List.filterMap_some
  rw [delivered, List.filterMap_append, hsessions]
  rfl

variable {σ : JMSSender S M} {bufferSize : Int}

omit [DecidableEq S] in
/-- `send(SIPSession)` adds the session, after dropping the oldest one if the
buffer overflows. -/
theorem kept_send (h : Buffering bufferSize σ) (hsize : 0 ≤ bufferSize)
    {accepted : List S} {n : Nat} (hσ : Kept accepted n σ) (session : S) :
    ∃ n, Kept (accepted ++ [session]) n
      (σ.sendSession .returns session).1 := by
  obtain ⟨hsound, hcounter⟩ := hσ
  unfold JMSSender.sendSession
  rw [if_pos h.isDelayed]
  by_cases hover : σ.isBufferOverflowed = true
  · rw [if_neg (not_not.mpr hover)]
    -- a buffer that overflows is not empty
    have hne : σ.sessions ≠ [] := by
      intro hempty
      simp only [JMSSender.isBufferOverflowed, hempty, h.messages,
        h.bufferSize, decide_eq_true_eq] at hover
      exact absurd hover (Int.not_lt.mpr hsize)
    obtain ⟨oldest, rest, hqueue⟩ := List.exists_cons_of_ne_nil hne
    have hdropped := hsound.step (.drops hqueue)
    have hadded := hdropped.step (.accepts session)
    refine ⟨n + 1, ?_, ?_⟩
    · show (Fifo.mk (accepted ++ [session]) (σ.sessions.tail ++ [session])
        (delivered σ) (n + 1)).Sound
      rw [hqueue, List.tail_cons]
      exact hadded
    · show σ.getDiscardedSessions + 1 = Int32.ofNat (n + 1)
      rw [hcounter, Int32.ofNat_add]
      rfl
  · rw [if_pos hover]
    exact ⟨n, hsound.step (.accepts session), hcounter⟩

theorem drainPass_eq (h : Buffering bufferSize σ)
    (results : Nat → JMSResult) :
    ∃ k, step σ (.pass results) =
      { σ with
        sessions := σ.sessions.drop k
        sent := σ.sent ++ (σ.sessions.take k).map (some ∘ .session) } := by
  obtain ⟨k, -, -, -, heq⟩ := DelayedSender.drainSessions_spec results
    h.hasProducer 0 rfl
  exact ⟨k, heq⟩

theorem kept_pass (h : Buffering bufferSize σ) {accepted : List S} {n : Nat}
    (hσ : Kept accepted n σ) (results : Nat → JMSResult) :
    Kept accepted n (step σ (.pass results)) := by
  obtain ⟨k, heq⟩ := drainPass_eq h results
  obtain ⟨hsound, hcounter⟩ := hσ
  have hsent := hsound.delivers_front (List.take_append_drop k σ.sessions).symm
  have hdelivered := delivered_append { σ with
    sessions := σ.sessions.drop k } (σ.sessions.take k)
  rw [heq]
  refine ⟨?_, hcounter⟩
  unfold fifo
  rw [hdelivered]
  exact hsent

theorem buffering_step (h : Buffering bufferSize σ) (a : PassAction S) :
    Buffering bufferSize (step σ a) := by
  obtain ⟨hdelayed, hproducer, hmessages, hsize⟩ := h
  cases a with
  | send session =>
    unfold step JMSSender.sendSession
    simp only [hdelayed, if_true]
    split <;> exact ⟨rfl, hproducer, hmessages, hsize⟩
  | pass results =>
    obtain ⟨k, heq⟩ := drainPass_eq ⟨hdelayed, hproducer, hmessages, hsize⟩
      results
    rw [heq]
    exact ⟨hdelayed, hproducer, hmessages, hsize⟩

theorem buffering_run (bufferSize : Int) (actions : List (PassAction S)) :
    Buffering bufferSize ((machine (M := M) bufferSize).run actions) :=
  (machine bufferSize).run_invariant
    (I := Buffering bufferSize) ⟨rfl, ⟨nofun, nofun⟩, rfl, rfl⟩
    (fun _ a h => buffering_step h a) actions

theorem kept_step (hsize : 0 ≤ bufferSize) (h : Buffering bufferSize σ)
    {actions : List (PassAction S)} {n : Nat}
    (hσ : Kept (accepted actions) n σ) (a : PassAction S) :
    ∃ n, Kept (accepted (actions ++ [a])) n (step σ a) := by
  cases a with
  | send session =>
    have haccepted : accepted (actions ++ [.send session]) =
        accepted actions ++ [session] := by
      simp [accepted]
    rw [haccepted]
    exact kept_send h hsize hσ session
  | pass results =>
    have haccepted : accepted (actions ++ [.pass results]) =
        accepted actions := by
      simp [accepted]
    rw [haccepted]
    exact ⟨n, kept_pass h hσ results⟩

theorem kept_run (hsize : 0 ≤ bufferSize) (actions : List (PassAction S)) :
    ∃ n, Kept (accepted actions) n
      ((machine (M := M) bufferSize).run actions) := by
  induction actions using List.reverseRecOn with
  | nil => exact ⟨0, Fifo.sound_empty, rfl⟩
  | append_singleton actions a ih =>
    obtain ⟨n, hkept⟩ := ih
    rw [Machine.run_snoc]
    exact kept_step hsize (buffering_run bufferSize actions) hkept a

/-- Failed sends lose and reorder nothing, and the counter shows how many
sessions the buffer has dropped until it wraps. -/
theorem failed_sends_lose_nothing (hsize : 0 ≤ bufferSize)
    (actions : List (PassAction S)) :
    let σ : JMSSender S M := (machine bufferSize).run actions
    NothingLost actions σ ∧ (missing actions σ < 2 ^ 31 →
      σ.getDiscardedSessions.toInt = missing actions σ) := by
  intro σ
  obtain ⟨n, hsound, hcounter⟩ : ∃ n, Kept (accepted actions) n σ :=
    kept_run hsize actions
  have hbuffering : Buffering bufferSize σ := buffering_run bufferSize actions
  have hmissing : missing actions σ = n := by
    have hbalance := hsound.balance
    simp only [fifo] at hbalance
    rw [missing, List.length_append]
    omega
  refine ⟨⟨hsound.order, fun s => hsound.order.count_le s, ?_, ?_, ?_⟩, ?_⟩
  · rw [hmissing]
    exact hcounter
  · intro results
    exact DelayedSender.reaches_drainPass hbuffering.hasProducer
      hbuffering.messages
  · intro results n hn hbefore hthrows
    have hpass := DelayedSender.drainPass_throws hbuffering.hasProducer hn
      hbefore hthrows
    rw [step, hpass]
    exact ⟨rfl, delivered_append { σ with sessions := _ } _⟩
  · intro hfew
    rw [hmissing] at hfew ⊢
    rw [hcounter, Int32.toInt_ofNat_of_lt hfew]

/-- A buffer for one session: the second send of the first pass throws, and the
last session displaces one. -/
theorem nothing_lost_one_failure :
    let actions : List (PassAction Nat) :=
      [.send 1, .send 2, .pass fun n => if n = 1 then .throws else .returns,
        .send 3, .send 4]
    let σ : JMSSender Nat Nat := (machine 1).run actions
    NothingLost actions σ ∧ σ.getDiscardedSessions.toInt = 1 := by
  intro actions σ
  have hone : missing actions σ = 1 := by decide
  have hfew : missing actions σ < 2 ^ 31 := by
    rw [hone]
    decide
  obtain ⟨hkept, hcounter⟩ :
      NothingLost actions σ ∧ (missing actions σ < 2 ^ 31 →
        σ.getDiscardedSessions.toInt = missing actions σ) :=
    failed_sends_lose_nothing (by decide) actions
  exact ⟨hkept, (hcounter hfew).trans (congrArg Nat.cast hone)⟩

/-! ## A counter that has wrapped -/

/-- A buffer of size 0 holds the last session and counts all others. -/
theorem run_sends (n : Nat) :
    (machine (M := Nat) 0).run ((List.range (n + 1)).map .send) =
      { (machine 0).init with
        sessions := [n]
        discardedSessions := Int32.ofNat n } := by
  induction n with
  | zero => rfl
  | succ n ih =>
    rw [List.range_succ, List.map_append, List.map_singleton,
      Machine.run_snoc, ih]
    have hcounter : Int32.ofNat n + 1 = Int32.ofNat (n + 1) :=
      (Int32.ofNat_add n 1).symm
    show { (machine (S := Nat) (M := Nat) 0).init with
      sessions := [n + 1]
      discardedSessions := Int32.ofNat n + 1 } = _
    rw [hcounter]

/-- After 2^31 discards the counter is negative. -/
theorem counter_wraps :
    ¬ ∀ (bufferSize : Int) (actions : List (PassAction Nat)),
      0 ≤ bufferSize →
      let σ : JMSSender Nat Nat := (machine bufferSize).run actions
      ((accepted actions).length : Int) =
        (delivered σ ++ σ.sessions).length +
          σ.getDiscardedSessions.toInt := by
  intro h
  have hwrapped := h 0 ((List.range (2 ^ 31 + 1)).map .send) (by decide)
  have haccepted : accepted ((List.range (2 ^ 31 + 1)).map .send) =
      List.range (2 ^ 31 + 1) := by
    rw [accepted, List.filterMap_map]
    exact List.filterMap_some
  have hcounter : (Int32.ofNat (2 ^ 31)).toInt = -2 ^ 31 := by decide
  simp only [haccepted, List.length_range, run_sends] at hwrapped
  rw [JMSSender.getDiscardedSessions, hcounter] at hwrapped
  simp [delivered, machine, DelayedBuffer.new] at hwrapped

end PassAction

end Sipana
