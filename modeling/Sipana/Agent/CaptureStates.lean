import Sipana.Agent.CaptureClosed

/-!
# The states of a capture session

`CaptureClosed` says when the captors are closed once. This module is about what
holds in every run of a capture session, whoever calls `start` and `stop` and
however the library ends the calls of `startCapture`:

* `one_capture_at_a_time` — at most one thread is inside `run`, it is there
  exactly as the state says, and no more than one party holds the lock;
* `error_is_final` — a session in the state ERROR is never started again;
* `comes_to_rest` — nobody waits forever: each call of `stop` and each thread
  has a limited number of steps to go, and until all of them have come to their
  end, one of them can go on.
-/

namespace Sipana

/-! ## Where the parties are -/

/-- The call holds the lock. -/
def StopCapturePc.inside : StopCapturePc → Nat
  | .testCaptor | .breakLoop | .close | .leaving _ => 1
  | .entering | .left _ => 0

/-- The steps that are left, as long as nobody makes the call wait. -/
def StopCapturePc.remaining : StopCapturePc → Nat
  | .entering => 5
  | .testCaptor => 4
  | .breakLoop => 3
  | .close => 2
  | .leaving _ => 1
  | .left _ => 0

namespace CapturePc

def inside : CapturePc → Nat
  | .stopping pc => pc.inside
  | _ => 0

def remaining : CapturePc → Nat
  | .setRunning => 14
  | .selectDevice => 13
  | .openDevice => 12
  | .setFilter => 11
  | .loopPacket => 10
  | .setError => 9
  | .testState => 8
  -- `setIdle` or `setFailed` comes after `stop`
  | .stopping pc => pc.remaining + 2
  | .setIdle | .setFailed => 1
  | .finished => 0

/-- The captors that the thread may still open. -/
def unopened : CapturePc → Nat
  | .setRunning | .selectDevice | .openDevice => 1
  | _ => 0

/-- The state in which the thread can be there. -/
def Agrees (state : CaptureState) : CapturePc → Prop
  | .finished => True
  | .testState => state ≠ .idle
  | _ => state = .runinng

end CapturePc

namespace CaptureSession

variable {σ : CaptureSession}

/-- The field refers to the captor that was opened last. -/
def CurrentCaptor (σ : CaptureSession) : Prop :=
  match σ.captor with
  | some c => c + 1 = σ.captors.length
  | none => σ.captors.length = 0

/-- How many parties hold the lock. -/
def insiders (σ : CaptureSession) : Nat :=
  Threads.total StopCapturePc.inside σ.stops +
    Threads.total CapturePc.inside σ.runs

/-- The steps that are left to the calls of `stop` and to the threads. -/
def remaining (σ : CaptureSession) : Nat :=
  Threads.total StopCapturePc.remaining σ.stops +
    Threads.total CapturePc.remaining σ.runs

/-- What every step keeps. -/
structure Regular (σ : CaptureSession) : Prop where
  oneRun : Threads.AtMostOne (· ≠ .finished) σ.runs
  agrees : ∀ pc ∈ σ.runs, pc.Agrees σ.state
  rest : (∀ pc ∈ σ.runs, pc = .finished) → σ.state ≠ .runinng
  lock : σ.insiders = σ.locked.toNat
  current : σ.CurrentCaptor
  opened : σ.captors.length + Threads.total CapturePc.unopened σ.runs ≤
    σ.runs.length

/-! ## Steps of `stop` -/

/-- What a step of `stop` from `pc` leads to. -/
structure StopMoves (σ : CaptureSession) (pc : StopCapturePc)
    (τ : CaptureSession) (pc' : StopCapturePc) : Prop where
  captor : τ.captor = σ.captor
  captors : τ.captors.length = σ.captors.length
  lock : τ.locked.toNat + pc.inside = σ.locked.toNat + pc'.inside

theorem onCaptor_moves (σ : CaptureSession) (f : Captor → Captor)
    {pc pc' : StopCapturePc} (hpc : pc.inside = 1) (hpc' : pc'.inside = 1) :
    StopMoves σ pc (σ.onCaptor f pc').1 (σ.onCaptor f pc').2 := by
  unfold onCaptor
  split
  · refine ⟨rfl, List.length_modify .., ?_⟩
    rw [hpc, hpc']
  · exact ⟨rfl, rfl, by rw [hpc]; rfl⟩

theorem stopStep_moves (pc : StopCapturePc)
    (hlock : pc.inside = 1 → σ.locked = true) :
    StopMoves σ pc (σ.stopStep pc).1 (σ.stopStep pc).2 := by
  cases pc with
  | entering =>
    simp only [stopStep]
    split
    · exact ⟨rfl, rfl, rfl⟩
    · next hfree =>
      refine ⟨rfl, rfl, ?_⟩
      rw [Bool.not_eq_true] at hfree
      rw [hfree]
      rfl
  | testCaptor =>
    simp only [stopStep]
    split <;> exact ⟨rfl, rfl, rfl⟩
  | breakLoop => exact onCaptor_moves σ _ rfl rfl
  | close => exact onCaptor_moves σ _ rfl rfl
  | leaving result =>
    refine ⟨rfl, rfl, ?_⟩
    rw [hlock rfl]
    rfl
  | left result => exact ⟨rfl, rfl, rfl⟩

/-- A step of `stop` waits for the lock, or there is one step less to go. -/
theorem stopStep_remaining (σ : CaptureSession) (pc : StopCapturePc) :
    (σ.stopStep pc = (σ, pc) ∧
        (pc = .entering ∧ σ.locked = true ∨ pc.remaining = 0)) ∨
      (σ.stopStep pc).2.remaining < pc.remaining := by
  cases pc with
  | entering =>
    by_cases hlocked : σ.locked = true
    · refine Or.inl ⟨?_, Or.inl ⟨rfl, hlocked⟩⟩
      simp only [stopStep, hlocked, if_true]
    · refine Or.inr ?_
      simp [stopStep, hlocked, StopCapturePc.remaining]
  | testCaptor =>
    refine Or.inr ?_
    simp only [stopStep]
    split <;> simp [StopCapturePc.remaining]
  | breakLoop | close =>
    refine Or.inr ?_
    simp only [stopStep, onCaptor]
    split <;> simp [StopCapturePc.remaining]
  | leaving result => exact Or.inr Nat.one_pos
  | left result => exact Or.inl ⟨rfl, Or.inr rfl⟩

/-! ## Steps of `run` -/

/-- What a step of `run` from `pc` leads to. -/
structure RunMoves (σ : CaptureSession) (pc : CapturePc) (τ : CaptureSession)
    (pc' : CapturePc) : Prop where
  runs : τ.runs = σ.runs
  stops : τ.stops = σ.stops
  agrees : pc'.Agrees τ.state
  rest : pc ≠ .finished → pc' = .finished → τ.state ≠ .runinng
  lock : τ.locked.toNat + pc.inside = σ.locked.toNat + pc'.inside
  current : τ.CurrentCaptor
  opened : τ.captors.length + pc'.unopened ≤ σ.captors.length + pc.unopened
  final : σ.state = .error →
    τ.state = .error ∧ τ.captors.length = σ.captors.length

/-- The thread goes on and touches nothing. -/
theorem RunMoves.goes {pc pc' : CapturePc} (hcurrent : σ.CurrentCaptor)
    (hagrees : pc'.Agrees σ.state)
    (hrest : pc ≠ .finished → pc' = .finished → σ.state ≠ .runinng)
    (hlock : pc.inside = pc'.inside) (hopened : pc'.unopened ≤ pc.unopened) :
    RunMoves σ pc σ pc' :=
  ⟨rfl, rfl, hagrees, hrest, by rw [hlock], hcurrent,
    Nat.add_le_add_left hopened _, fun h => ⟨h, rfl⟩⟩

theorem setState_moves {before after : CapturePc} {state : CaptureState}
    (hcurrent : σ.CurrentCaptor) (hbefore : before.Agrees σ.state)
    (hne : before ≠ .finished) (hafter : after.Agrees state)
    (hrest : after = .finished → state ≠ .runinng)
    (hinside : before.inside = after.inside)
    (hopened : after.unopened ≤ before.unopened) (hrun : σ.state ≠ .error) :
    RunMoves σ before (σ.setState state before after).1
      (σ.setState state before after).2 := by
  unfold setState
  split
  · exact .goes hcurrent hbefore (fun _ hfinished => absurd hfinished hne) rfl
      (Nat.le_refl _)
  · exact ⟨rfl, rfl, hafter, fun _ => hrest, by rw [hinside], hcurrent,
      Nat.add_le_add_left hopened _, fun herror => absurd herror hrun⟩

/-- A call into the library that returns or leads to the handlers. -/
theorem onReturn_moves {pc pc' : CapturePc} (result : CaptureResult)
    (hcurrent : σ.CurrentCaptor) (hrun : σ.state = .runinng)
    (hagrees : pc'.Agrees σ.state) (hne : pc' ≠ .finished)
    (hpc : pc.inside = 0) (hpc' : pc'.inside = 0)
    (hopened : pc'.unopened ≤ pc.unopened) :
    RunMoves σ pc (onReturn result σ σ pc').1 (onReturn result σ σ pc').2 := by
  cases result with
  | returns =>
    exact .goes hcurrent hagrees (fun _ hfinished => absurd hfinished hne)
      (hpc.trans hpc'.symm) hopened
  | throws => exact .goes hcurrent hrun (fun _ => nofun) hpc (Nat.zero_le _)

theorem stopping_moves {pc : StopCapturePc} (hcurrent : σ.CurrentCaptor)
    (hrun : σ.state = .runinng) (hlock : pc.inside = 1 → σ.locked = true)
    (result : CaptureResult) :
    RunMoves σ (.stopping pc) (σ.runStep result (.stopping pc)).1
      (σ.runStep result (.stopping pc)).2 := by
  obtain ⟨hstate, hruns, hstops⟩ := σ.stopStep_frame pc
  obtain ⟨hcaptor, hcaptors, hbalance⟩ := stopStep_moves pc hlock
  unfold runStep
  simp only
  generalize σ.stopStep pc = c at hstate hruns hstops hcaptor hcaptors hbalance
  obtain ⟨τ, pc'⟩ := c
  simp only at hstate hruns hstops hcaptor hcaptors hbalance ⊢
  have hτ : τ.state = .runinng := hstate.trans hrun
  have hcurrent' : τ.CurrentCaptor := by
    rw [CurrentCaptor, hcaptor, hcaptors]
    exact hcurrent
  have herror : σ.state = .error → τ.state = .error ∧
      τ.captors.length = σ.captors.length := fun h =>
    ⟨hstate.trans h, hcaptors⟩
  split
  · next heq =>
    cases heq
    exact ⟨hruns, hstops, hτ, fun _ => nofun, hbalance, hcurrent',
      Nat.le_of_eq hcaptors, herror⟩
  · next heq =>
    cases heq
    exact ⟨hruns, hstops, hτ, fun _ => nofun, hbalance, hcurrent',
      Nat.le_of_eq hcaptors, herror⟩
  · next heq =>
    cases heq
    exact ⟨hruns, hstops, hτ, fun _ => nofun, hbalance, hcurrent',
      Nat.le_of_eq hcaptors, herror⟩

theorem runStep_moves {pc : CapturePc} (hcurrent : σ.CurrentCaptor)
    (hagrees : pc.Agrees σ.state) (hlock : pc.inside = 1 → σ.locked = true)
    (result : CaptureResult) :
    RunMoves σ pc (σ.runStep result pc).1 (σ.runStep result pc).2 := by
  have hlive : σ.state = .runinng → σ.state ≠ .error := by
    intro h
    rw [h]
    decide
  cases pc with
  | setRunning =>
    exact setState_moves hcurrent hagrees nofun rfl nofun rfl (Nat.le_refl _)
      (hlive hagrees)
  | selectDevice =>
    exact onReturn_moves result hcurrent hagrees hagrees nofun rfl rfl
      (Nat.le_refl _)
  | openDevice =>
    cases result with
    | throws =>
      exact .goes hcurrent hagrees (fun _ => nofun) rfl (Nat.zero_le _)
    | returns =>
      refine ⟨rfl, rfl, hagrees, fun _ => nofun, rfl, ?_, ?_, ?_⟩
      · exact (List.length_append : (σ.captors ++ [_]).length = _).symm
      · exact Nat.le_of_eq (List.length_append : (σ.captors ++ [_]).length = _)
      · intro herror
        exact absurd herror (hlive hagrees)
  | setFilter =>
    exact onReturn_moves result hcurrent hagrees hagrees nofun rfl rfl
      (Nat.le_refl _)
  | loopPacket =>
    have hstate : σ.state ≠ .idle := by
      rw [show σ.state = .runinng from hagrees]
      decide
    exact onReturn_moves result hcurrent hagrees hstate nofun rfl rfl
      (Nat.le_refl _)
  | setError =>
    exact setState_moves hcurrent hagrees nofun
      (show CaptureState.error ≠ .idle by decide) nofun rfl (Nat.le_refl _)
      (hlive hagrees)
  | testState =>
    unfold runStep
    simp only
    split
    · exact .goes hcurrent hagrees (fun _ => nofun) rfl (Nat.le_refl _)
    · by_cases hrun : σ.state = .runinng
      · rw [if_pos hrun]
        exact .goes hcurrent hrun (fun _ => nofun) rfl (Nat.le_refl _)
      · rw [if_neg hrun]
        exact .goes hcurrent trivial (fun _ _ => hrun) rfl (Nat.le_refl _)
  | stopping pc => exact stopping_moves hcurrent hagrees hlock result
  | setIdle =>
    exact setState_moves hcurrent hagrees nofun trivial (fun _ => by decide) rfl
      (Nat.le_refl _) (hlive hagrees)
  | setFailed =>
    exact setState_moves hcurrent hagrees nofun trivial (fun _ => by decide) rfl
      (Nat.le_refl _) (hlive hagrees)
  | finished =>
    exact .goes hcurrent trivial (fun hne => absurd rfl hne) rfl (Nat.le_refl _)

/-- Where a step of `run` waits for the lock. -/
theorem runStep_remaining (σ : CaptureSession) (result : CaptureResult)
    (pc : CapturePc) :
    (σ.runStep result pc = (σ, pc) ∧
        (pc.inside = 0 ∧ σ.locked = true ∨ pc.remaining = 0)) ∨
      (σ.runStep result pc).2.remaining < pc.remaining := by
  cases pc with
  | setRunning | setError | setIdle | setFailed =>
    by_cases hlocked : σ.locked = true
    · refine Or.inl ⟨?_, Or.inl ⟨rfl, hlocked⟩⟩
      simp only [runStep, setState, hlocked, if_true]
    · refine Or.inr ?_
      simp [runStep, setState, hlocked, CapturePc.remaining]
  | selectDevice | openDevice | setFilter | loopPacket =>
    refine Or.inr ?_
    cases result <;> simp [runStep, onReturn, CapturePc.remaining]
  | testState =>
    by_cases hlocked : σ.locked = true
    · refine Or.inl ⟨?_, Or.inl ⟨rfl, hlocked⟩⟩
      simp only [runStep, hlocked, if_true]
    · refine Or.inr ?_
      simp only [runStep, hlocked, Bool.false_eq_true, if_false]
      split <;> simp [CapturePc.remaining, StopCapturePc.remaining]
  | stopping pc =>
    rcases σ.stopStep_remaining pc with ⟨heq, hwaits⟩ | hless
    · rcases hwaits with ⟨rfl, hlocked⟩ | hleft
      · refine Or.inl ⟨?_, Or.inl ⟨rfl, hlocked⟩⟩
        simp only [runStep, heq]
      · cases pc with
        | left outcome =>
          refine Or.inr ?_
          cases outcome <;> simp [runStep, stopStep, CapturePc.remaining,
            StopCapturePc.remaining]
        | _ => exact absurd hleft (Nat.succ_ne_zero _)
    · refine Or.inr ?_
      unfold runStep
      simp only
      generalize σ.stopStep pc = c at hless
      obtain ⟨τ, pc'⟩ := c
      simp only at hless ⊢
      split
      · simp [CapturePc.remaining]
      · simp [CapturePc.remaining]
      · next heq =>
        cases heq
        simp only [CapturePc.remaining]
        omega
  | finished => exact Or.inl ⟨rfl, Or.inr rfl⟩

/-! ## Every run -/

theorem regular_start (h : Regular σ) : Regular σ.start := by
  unfold start
  split_ifs with hlocked hidle
  · exact h
  · -- inside `run` the session is idle nowhere
    have hnone : ∀ pc ∈ σ.runs, pc = .finished := by
      intro pc hpc
      have hagrees := h.agrees pc hpc
      rw [hidle] at hagrees
      cases pc with
      | finished => rfl
      | testState => exact absurd rfl hagrees
      | _ => exact absurd hagrees nofun
    refine ⟨?_, ?_, ?_, ?_, h.current, ?_⟩
    · refine Threads.atMostOne_append ?_ _
      intro pc hpc
      exact not_not.mpr (hnone pc hpc)
    · intro pc hpc
      rw [List.mem_append, List.mem_singleton] at hpc
      rcases hpc with hpc | rfl
      · obtain rfl := hnone pc hpc
        trivial
      · rfl
    · intro hfinished
      exact absurd (hfinished .setRunning (by simp)) nofun
    · rw [← h.lock, insiders, insiders, Threads.total_append]
      rfl
    · have hopened := h.opened
      rw [Threads.total_append, List.length_append]
      show σ.captors.length + (_ + 1) ≤ σ.runs.length + 1
      omega
  · exact h

theorem regular_stop (h : Regular σ) :
    Regular { σ with stops := σ.stops ++ [.entering] } := by
  obtain ⟨hone, hagrees, hrest, hlock, hcurrent, hopened⟩ := h
  refine ⟨hone, hagrees, hrest, ?_, hcurrent, hopened⟩
  rw [← hlock, insiders, insiders, Threads.total_append]
  rfl

/-- If somebody holds the lock, it is taken. -/
theorem Regular.locked (h : Regular σ) (hpos : 0 < σ.insiders) :
    σ.locked = true := by
  rw [h.lock] at hpos
  cases hlocked : σ.locked with
  | true => rfl
  | false =>
    rw [hlocked] at hpos
    exact absurd hpos (Nat.lt_irrefl 0)

/-- A call of `stop` moves. -/
theorem Regular.stopMoves (h : Regular σ) {i : Nat} {pc : StopCapturePc}
    (hi : σ.stops[i]? = some pc) :
    StopMoves σ pc (σ.stopStep pc).1 (σ.stopStep pc).2 := by
  have hinside := Threads.le_total StopCapturePc.inside
    (List.mem_of_getElem? hi)
  refine stopStep_moves pc fun hpc => h.locked ?_
  unfold insiders
  omega

/-- A thread moves inside `run`. -/
theorem Regular.runMoves (h : Regular σ) {k : Nat} {pc : CapturePc}
    (hk : σ.runs[k]? = some pc) (result : CaptureResult) :
    RunMoves σ pc (σ.runStep result pc).1 (σ.runStep result pc).2 := by
  have hmem := List.mem_of_getElem? hk
  have hinside := Threads.le_total CapturePc.inside hmem
  refine runStep_moves h.current (h.agrees pc hmem) (fun hpc => h.locked ?_)
    result
  unfold insiders
  omega

theorem regular_stops (h : Regular σ) (i : Nat) :
    Regular (σ.step (.stops i)) := by
  cases hi : σ.stops[i]? with
  | none => simpa [step, hi] using h
  | some pc =>
    obtain ⟨hstate, hruns, hstops⟩ := σ.stopStep_frame pc
    obtain ⟨hcaptor, hcaptors, hbalance⟩ := h.stopMoves hi
    have hset := Threads.total_set StopCapturePc.inside hi (σ.stopStep pc).2
    have hstep : σ.step (.stops i) =
        { (σ.stopStep pc).1 with
          stops := σ.stops.set i (σ.stopStep pc).2 } := by
      simp [step, hi, hstops]
    rw [hstep]
    generalize (σ.stopStep pc).1 = τ at *
    generalize (σ.stopStep pc).2 = pc' at *
    refine ⟨hruns.symm ▸ h.oneRun, ?_, ?_, ?_, ?_, ?_⟩
    · intro q hq
      rw [hstate]
      exact h.agrees q (hruns ▸ hq)
    · intro hfinished
      rw [hstate]
      exact h.rest (hruns ▸ hfinished)
    · have hlock := h.lock
      unfold insiders at hlock ⊢
      simp only [hruns]
      omega
    · have hcurrent := h.current
      unfold CurrentCaptor at hcurrent ⊢
      simp only [hcaptor, hcaptors]
      exact hcurrent
    · have hopened := h.opened
      simp only [hruns, hcaptors]
      exact hopened

/-- What the step of a thread leads to that has not finished. -/
theorem regular_moves (h : Regular σ) {k : Nat} {pc : CapturePc}
    (hk : σ.runs[k]? = some pc) (hpc : pc ≠ .finished) {τ : CaptureSession}
    {pc' : CapturePc} (hmoves : RunMoves σ pc τ pc') :
    Regular { τ with runs := σ.runs.set k pc' } := by
  have hset := Threads.total_set CapturePc.inside hk pc'
  have hopens := Threads.total_set CapturePc.unopened hk pc'
  refine ⟨h.oneRun.set hk fun _ => hpc, ?_, ?_, ?_, hmoves.current, ?_⟩
  · intro q hq
    obtain ⟨j, hj⟩ := List.mem_iff_getElem?.mp hq
    rcases Threads.of_getElem?_set hj with ⟨-, rfl⟩ | ⟨hne, hj⟩
    · exact hmoves.agrees
    · -- all threads but the one that moves have finished
      have hq' : q = .finished := by
        by_contra hq'
        exact hne (h.oneRun j k q pc hj hq' hk hpc)
      rw [hq']
      trivial
  · intro hfinished
    exact hmoves.rest hpc (hfinished pc' (Threads.mem_set hk pc'))
  · have hlock := h.lock
    have hbalance := hmoves.lock
    unfold insiders at hlock ⊢
    simp only [hmoves.stops]
    omega
  · have hopened := h.opened
    have hmore := hmoves.opened
    simp only [List.length_set]
    omega

/-- A step of a thread that has come to its end. -/
theorem step_finished {k : Nat} (hk : σ.runs[k]? = some .finished)
    (result : CaptureResult) : σ.step (.runs k result) = σ := by
  obtain ⟨hlt, hget⟩ := List.getElem?_eq_some_iff.mp hk
  have hset : σ.runs.set k .finished = σ.runs := by
    rw [← hget, List.set_getElem_self]
  simp only [step, hk, runStep, hset]

theorem step_runs {k : Nat} {pc : CapturePc} (hk : σ.runs[k]? = some pc)
    {result : CaptureResult}
    (hruns : (σ.runStep result pc).1.runs = σ.runs) :
    σ.step (.runs k result) = { (σ.runStep result pc).1 with
      runs := σ.runs.set k (σ.runStep result pc).2 } := by
  simp [step, hk, hruns]

theorem regular_step (h : Regular σ) (a : Action) : Regular (σ.step a) := by
  cases a with
  | start => exact regular_start h
  | stop => exact regular_stop h
  | stops i => exact regular_stops h i
  | runs k result =>
    cases hk : σ.runs[k]? with
    | none => simpa [step, hk] using h
    | some pc =>
      by_cases hpc : pc = .finished
      · rw [hpc] at hk
        rw [step_finished hk]
        exact h
      · have hmoves := h.runMoves hk result
        rw [step_runs hk hmoves.runs]
        exact regular_moves h hk hpc hmoves

theorem regular_run (actions : List Action) :
    Regular (machine.run actions) := by
  refine machine.run_invariant (I := Regular) ?_
    (fun _ a h => regular_step h a) actions
  exact ⟨Threads.atMostOne_nil _, nofun, fun _ => by decide, rfl, rfl,
    Nat.le_refl 0⟩

/-- Whoever calls `start` and `stop`: at most one thread is inside `run`, and
the session says RUNNING only while it is and IDLE only while it is not; one
party at most holds the lock, and only if it is taken; there are at most as many
captors as threads, and the field refers to the last one. -/
theorem one_capture_at_a_time (actions : List Action) :
    let σ := machine.run actions
    Threads.AtMostOne (· ≠ .finished) σ.runs ∧
    (σ.state = .runinng → ∃ pc ∈ σ.runs, pc ≠ .finished) ∧
    (σ.state = .idle → ∀ pc ∈ σ.runs, pc = .finished) ∧
    σ.insiders = σ.locked.toNat ∧
    σ.captors.length ≤ σ.runs.length ∧ σ.CurrentCaptor := by
  intro σ
  have h : Regular σ := regular_run actions
  refine ⟨h.oneRun, ?_, ?_, h.lock, ?_, h.current⟩
  · intro hrun
    by_contra hnone
    have hall : ∀ pc ∈ σ.runs, pc = .finished := by
      intro pc hpc
      by_contra hne
      exact hnone ⟨pc, hpc, hne⟩
    exact h.rest hall hrun
  · intro hidle pc hpc
    have hagrees := h.agrees pc hpc
    rw [hidle] at hagrees
    cases pc with
    | finished => rfl
    | testState => exact absurd rfl hagrees
    | _ => exact absurd hagrees nofun
  · exact Nat.le_trans (Nat.le_add_right _ _) h.opened

/-! ## After an error -/

/-- The session has failed when it had `n` threads and `m` captors. -/
structure Failed (n m : Nat) (σ : CaptureSession) : Prop where
  regular : Regular σ
  state : σ.state = .error
  runs : σ.runs.length = n
  captors : σ.captors.length = m

theorem failed_step {n m : Nat} (h : Failed n m σ) (a : Action) :
    Failed n m (σ.step a) := by
  have hregular := regular_step h.regular a
  cases a with
  | start =>
    have hidle : σ.state ≠ .idle := by
      rw [h.state]
      decide
    have hstep : σ.step .start = σ := by
      show σ.start = σ
      unfold start
      rw [if_neg hidle]
      split <;> rfl
    rw [hstep]
    exact h
  | stop => exact ⟨hregular, h.state, h.runs, h.captors⟩
  | stops i =>
    cases hi : σ.stops[i]? with
    | none => simpa [step, hi] using h
    | some pc =>
      obtain ⟨hstate, hruns, -⟩ := σ.stopStep_frame pc
      have hcaptors := (h.regular.stopMoves hi).captors
      refine ⟨hregular, ?_, ?_, ?_⟩
      · simpa [step, hi] using hstate.trans h.state
      · simpa [step, hi, hruns] using h.runs
      · simpa [step, hi] using hcaptors.trans h.captors
  | runs k result =>
    cases hk : σ.runs[k]? with
    | none => simpa [step, hk] using h
    | some pc =>
      have hmoves := h.regular.runMoves hk result
      obtain ⟨hstate, hcaptors⟩ := hmoves.final h.state
      rw [step_runs hk hmoves.runs] at hregular ⊢
      exact ⟨hregular, hstate, by simpa using h.runs,
        hcaptors.trans h.captors⟩

/-- A session in the state ERROR stays there: there is no further thread and no
further captor. -/
theorem error_is_final (before after : List Action)
    (h : (machine.run before).state = .error) :
    let σ := machine.run (before ++ after)
    σ.state = .error ∧ σ.runs.length = (machine.run before).runs.length ∧
      σ.captors.length = (machine.run before).captors.length := by
  intro σ
  have hrun : σ = machine.exec (machine.run before) after :=
    machine.run_append before after
  have hfailed := machine.exec_invariant
    (I := Failed (machine.run before).runs.length
      (machine.run before).captors.length)
    (fun _ a hσ => failed_step hσ a) ⟨regular_run before, h, rfl, rfl⟩ after
  rw [hrun]
  exact ⟨hfailed.state, hfailed.runs, hfailed.captors⟩

/-- A capture whose device cannot be opened. -/
def noDevice : List Action :=
  [.start, .runs 0 .returns, .runs 0 .returns, .runs 0 .throws,
    .runs 0 .returns]

theorem no_device_is_final : (machine.run
    (noDevice ++ [.runs 0 .returns, .start, .runs 1 .returns])).state =
      .error :=
  (error_is_final noDevice [.runs 0 .returns, .start, .runs 1 .returns]
    (by decide)).1

/-! ## Everybody comes to an end -/

/-- A step of somebody who is inside `stop` or `run`. -/
def Moves : Action → Bool
  | .start | .stop => false
  | .stops _ | .runs _ _ => true

/-- A party makes a step, unless it waits or has come to its end. -/
def effective (σ : CaptureSession) (a : Action) : Bool :=
  Moves a && decide (σ.step a ≠ σ)

theorem runStep_frame (σ : CaptureSession) (result : CaptureResult)
    (pc : CapturePc) : (σ.runStep result pc).1.runs = σ.runs ∧
      (σ.runStep result pc).1.stops = σ.stops := by
  cases pc with
  | setRunning | setError | setIdle | setFailed =>
    simp only [runStep, setState]
    split <;> exact ⟨rfl, rfl⟩
  | selectDevice | openDevice | setFilter | loopPacket =>
    cases result <;> exact ⟨rfl, rfl⟩
  | testState =>
    simp only [runStep]
    split <;> exact ⟨rfl, rfl⟩
  | stopping pc =>
    obtain ⟨-, hruns, hstops⟩ := σ.stopStep_frame pc
    unfold runStep
    simp only
    generalize σ.stopStep pc = c at hruns hstops
    obtain ⟨τ, pc'⟩ := c
    split <;> rename_i heq <;> cases heq <;> exact ⟨hruns, hstops⟩
  | finished => exact ⟨rfl, rfl⟩

/-- The step of a call of `stop`: nothing at all, or one step less to go. -/
theorem step_stops_cases {i : Nat} {pc : StopCapturePc}
    (hi : σ.stops[i]? = some pc) :
    (σ.step (.stops i) = σ ∧
        (pc = .entering ∧ σ.locked = true ∨ pc.remaining = 0)) ∨
      (σ.step (.stops i)).remaining < σ.remaining := by
  obtain ⟨-, hruns, hstops⟩ := σ.stopStep_frame pc
  have hset := Threads.total_set StopCapturePc.remaining hi (σ.stopStep pc).2
  rcases σ.stopStep_remaining pc with ⟨heq, hwaits⟩ | hless
  · refine Or.inl ⟨?_, hwaits⟩
    obtain ⟨hlt, hget⟩ := List.getElem?_eq_some_iff.mp hi
    have hback : σ.stops.set i pc = σ.stops := by
      rw [← hget, List.set_getElem_self]
    simp only [step, hi, heq, hback]
  · refine Or.inr ?_
    unfold remaining
    simp only [step, hi, hruns, hstops]
    omega

/-- The step of a thread: nothing at all, or one step less to go. -/
theorem step_runs_cases {k : Nat} {pc : CapturePc} (result : CaptureResult)
    (hk : σ.runs[k]? = some pc) :
    (σ.step (.runs k result) = σ ∧
        (pc.inside = 0 ∧ σ.locked = true ∨ pc.remaining = 0)) ∨
      (σ.step (.runs k result)).remaining < σ.remaining := by
  obtain ⟨hruns, hstops⟩ := σ.runStep_frame result pc
  have hset := Threads.total_set CapturePc.remaining hk
    (σ.runStep result pc).2
  rcases σ.runStep_remaining result pc with ⟨heq, hwaits⟩ | hless
  · refine Or.inl ⟨?_, hwaits⟩
    obtain ⟨hlt, hget⟩ := List.getElem?_eq_some_iff.mp hk
    have hback : σ.runs.set k pc = σ.runs := by
      rw [← hget, List.set_getElem_self]
    simp only [step, hk, heq, hback]
  · refine Or.inr ?_
    unfold remaining
    simp only [step, hk, hruns, hstops]
    omega

theorem remaining_step (σ : CaptureSession) {a : Action} (ha : Moves a) :
    (σ.step a).remaining + (σ.effective a).toNat ≤ σ.remaining := by
  -- a step that changes nothing does not count
  have hcases : σ.step a = σ ∨ (σ.step a).remaining < σ.remaining := by
    cases a with
    | start | stop => exact absurd ha Bool.false_ne_true
    | stops i =>
      cases hi : σ.stops[i]? with
      | none => exact Or.inl (by simp only [step, hi])
      | some pc => exact (step_stops_cases hi).imp And.left id
    | runs k result =>
      cases hk : σ.runs[k]? with
      | none => exact Or.inl (by simp only [step, hk])
      | some pc => exact (step_runs_cases result hk).imp And.left id
  rcases hcases with hsame | hless
  · have hnone : σ.effective a = false := by simp [effective, hsame]
    rw [hsame, hnone]
    exact Nat.le_refl _
  · have hone := Bool.toNat_le (σ.effective a)
    omega

theorem effective_of_less {a : Action} (ha : Moves a)
    (h : (σ.step a).remaining < σ.remaining) : σ.effective a = true := by
  have hne : σ.step a ≠ σ := by
    intro hsame
    rw [hsame] at h
    exact Nat.lt_irrefl _ h
  simp [effective, ha, hne]

/-- Whoever holds the lock can go on. -/
theorem effective_of_locked (h : Regular σ) (hlocked : σ.locked = true) :
    ∃ a, σ.effective a = true := by
  have hlock := h.lock
  rw [hlocked] at hlock
  have hsome : 0 < Threads.total StopCapturePc.inside σ.stops ∨
      0 < Threads.total CapturePc.inside σ.runs := by
    unfold insiders at hlock
    rw [Bool.toNat_true] at hlock
    omega
  rcases hsome with hpos | hpos
  · obtain ⟨pc, hpc, hinside⟩ := Threads.exists_of_total_pos _ hpos
    obtain ⟨i, hi⟩ := List.mem_iff_getElem?.mp hpc
    refine ⟨.stops i, effective_of_less rfl ?_⟩
    refine (step_stops_cases hi).resolve_left ?_
    intro hwaits
    cases pc <;> simp_all [StopCapturePc.inside, StopCapturePc.remaining]
  · obtain ⟨pc, hpc, hinside⟩ := Threads.exists_of_total_pos _ hpos
    obtain ⟨k, hk⟩ := List.mem_iff_getElem?.mp hpc
    refine ⟨.runs k .returns, effective_of_less rfl ?_⟩
    refine (step_runs_cases .returns hk).resolve_left ?_
    intro hwaits
    rcases hwaits.2 with ⟨hout, -⟩ | hleft
    · omega
    · cases pc <;> simp_all [CapturePc.inside, CapturePc.remaining]

/-- As long as nobody holds the lock, everybody can go on. -/
theorem effective_of_free (hfree : σ.locked = false) (h : ¬ σ.Quiet) :
    ∃ a, σ.effective a = true := by
  have hlocked : σ.locked ≠ true := by
    rw [hfree]
    decide
  unfold Quiet at h
  rw [not_and_or] at h
  rcases h with h | h
  · push Not at h
    obtain ⟨pc, hpc, hreturned, hthrown⟩ := h
    obtain ⟨i, hi⟩ := List.mem_iff_getElem?.mp hpc
    refine ⟨.stops i, effective_of_less rfl ?_⟩
    refine (step_stops_cases hi).resolve_left ?_
    intro hwaits
    rcases hwaits.2 with ⟨-, hheld⟩ | hleft
    · exact hlocked hheld
    · cases pc with
      | left result => cases result <;> contradiction
      | _ => exact absurd hleft (Nat.succ_ne_zero _)
  · push Not at h
    obtain ⟨pc, hpc, hlive⟩ := h
    obtain ⟨k, hk⟩ := List.mem_iff_getElem?.mp hpc
    refine ⟨.runs k .returns, effective_of_less rfl ?_⟩
    refine (step_runs_cases .returns hk).resolve_left ?_
    intro hwaits
    rcases hwaits.2 with ⟨-, hheld⟩ | hleft
    · exact hlocked hheld
    · cases pc with
      | finished => exact hlive rfl
      | _ => exact absurd hleft (Nat.succ_ne_zero _)

theorem remaining_le (σ : CaptureSession) :
    σ.remaining ≤ 5 * σ.stops.length + 14 * σ.runs.length := by
  have hstops : ∀ pc : StopCapturePc, pc.remaining ≤ 5 := by
    intro pc
    cases pc <;> simp [StopCapturePc.remaining]
  have hruns : ∀ pc : CapturePc, pc.remaining ≤ 14 := by
    intro pc
    cases pc with
    | stopping pc =>
      have hpc := hstops pc
      simp only [CapturePc.remaining]
      omega
    | _ => simp [CapturePc.remaining]
  exact Nat.add_le_add (Threads.total_le _ hstops _)
    (Threads.total_le _ hruns _)

/-- There is no deadlock and no livelock, however often `stop` is called and
whatever becomes of the threads: until everybody has come to an end, somebody
can make a step that is none of waiting; and each call of `stop` has at most
five such steps, each thread fourteen. -/
theorem comes_to_rest (actions : List Action) :
    let σ := machine.run actions
    (¬ σ.Quiet → ∃ a, σ.effective a = true) ∧
    ∀ more : List Action, (∀ a ∈ more, Moves a = true) →
      machine.tally effective σ more ≤
        5 * σ.stops.length + 14 * σ.runs.length := by
  intro σ
  refine ⟨?_, ?_⟩
  · intro hbusy
    cases hlocked : σ.locked with
    | true => exact effective_of_locked (regular_run actions) hlocked
    | false => exact effective_of_free hlocked hbusy
  · intro more hmoves
    have htally := machine.tally_le_measure remaining
      (fun s a ha => remaining_step s (hmoves a ha)) σ
    exact Nat.le_trans htally σ.remaining_le

end CaptureSession

end Sipana
