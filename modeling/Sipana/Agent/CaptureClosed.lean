import Sipana.Agent.CaptureSession

/-!
# The captors are closed once

Two parties close a captor: `run` does when its loop has ended normally, and
whoever calls `stop` does, and neither looks whether the other one has done so.
If the capture fails after the captor was opened, `run` leaves it to a caller of
`stop`. So a captor is closed exactly once when `stop` is called just for the
captures that fail.
-/

namespace Sipana

/-- The call has still to close the captor it finds. -/
def StopCapturePc.Pending : StopCapturePc → Prop
  | .entering | .testCaptor | .breakLoop | .close => True
  | .leaving _ | .left _ => False

instance : DecidablePred StopCapturePc.Pending
  | .entering | .testCaptor | .breakLoop | .close => .isTrue trivial
  | .leaving _ | .left _ => .isFalse id

namespace CaptureSession

/-! ## The property and its condition -/

/-- Nobody is inside `stop` or `run`. -/
def Quiet (σ : CaptureSession) : Prop :=
  (∀ pc ∈ σ.stops, pc = .left .returns ∨ pc = .left .throws) ∧
    ∀ pc ∈ σ.runs, pc = .finished

instance (σ : CaptureSession) : Decidable σ.Quiet :=
  inferInstanceAs (Decidable (_ ∧ _))

/-- When all is quiet, every captor has been closed once. -/
def ClosedOnce (σ : CaptureSession) : Prop :=
  σ.Quiet → (σ.state = .idle ∨ σ.state = .error) →
    ∀ captor ∈ σ.captors, captor.closed = 1

/-- How often the captor in the field was closed; if there is none, there is
nothing left to close. -/
def timesClosed (σ : CaptureSession) : Nat :=
  match σ.captor with
  | some c => (σ.captors[c]?.map Captor.closed).getD 1
  | none => 1

/-- A call of `stop` from outside is going to close the captor. -/
def StopPending (σ : CaptureSession) : Prop := ∃ pc ∈ σ.stops, pc.Pending

instance (σ : CaptureSession) : Decidable σ.StopPending :=
  inferInstanceAs (Decidable (∃ pc ∈ _, _))

/-- The loop has ended normally and its thread is going to close the captor. -/
def Ending (σ : CaptureSession) : CapturePc → Prop
  | .testState => σ.state = .runinng
  | .stopping pc => pc.Pending
  | _ => False

instance (σ : CaptureSession) (pc : CapturePc) : Decidable (σ.Ending pc) :=
  match pc with
  | .testState => inferInstanceAs (Decidable (_ = _))
  | .stopping pc => inferInstanceAs (Decidable pc.Pending)
  | .setRunning | .selectDevice | .openDevice | .setFilter | .loopPacket
  | .setError | .setIdle | .setFailed | .finished => .isFalse id

/-- From outside a captor is closed only while it is open and its loop has not
ended; the loop ends normally only if nobody has closed the captor; and a thread
that has failed finishes only if the captor has been or is being closed. -/
def Tidy (σ : CaptureSession) : Action → Prop
  | .stops i => σ.stops[i]? = some .close →
    σ.timesClosed = 0 ∧ ∀ pc ∈ σ.runs, ¬ σ.Ending pc
  | .runs k result =>
    (σ.runs[k]? = some .loopPacket → result = .returns → σ.timesClosed = 0) ∧
    (σ.runs[k]? = some .testState → σ.state = .error →
      σ.timesClosed ≠ 0 ∨ σ.StopPending)
  | .start | .stop => True

instance (σ : CaptureSession) (a : Action) : Decidable (σ.Tidy a) :=
  match a with
  | .stops _ => inferInstanceAs (Decidable (_ → _))
  | .runs _ _ => inferInstanceAs (Decidable (_ ∧ _))
  | .start | .stop => .isTrue trivial

/-! ## Counting -/

variable {σ : CaptureSession} {n : Nat}

/-- All captors before the current one were closed once, and that one `n` times.
If there is none yet, `n` is 1. -/
inductive Tally (σ : CaptureSession) : Nat → Prop
  | unopened : σ.captor = none → σ.captors = [] → Tally σ 1
  | opened {front current} : σ.captors = front ++ [current] →
      (∀ captor ∈ front, captor.closed = 1) → σ.captor = some front.length →
      Tally σ current.closed

theorem Tally.timesClosed (h : Tally σ n) : σ.timesClosed = n := by
  unfold CaptureSession.timesClosed
  cases h with
  | unopened hcaptor => rw [hcaptor]
  | opened hcaptors _ hcaptor => simp [hcaptor, hcaptors]

theorem Tally.closed_of_mem (h : Tally σ n) {captor : Captor}
    (hmem : captor ∈ σ.captors) : captor.closed = 1 ∨ captor.closed = n := by
  cases h with
  | unopened _ hnone => simp [hnone] at hmem
  | opened hcaptors hfront _ =>
    rw [hcaptors, List.mem_append, List.mem_singleton] at hmem
    rcases hmem with hmem | rfl
    · exact Or.inl (hfront captor hmem)
    · exact Or.inr rfl

theorem Tally.closed_once (h : Tally σ 1) :
    ∀ captor ∈ σ.captors, captor.closed = 1 :=
  fun _ hmem => (h.closed_of_mem hmem).elim id id

/-- `Tally` looks at the captors only. -/
theorem Tally.congr {τ : CaptureSession} (h : Tally σ n)
    (hcaptor : τ.captor = σ.captor) (hcaptors : τ.captors = σ.captors) :
    Tally τ n := by
  cases h with
  | unopened hnone hempty =>
    exact .unopened (hcaptor.trans hnone) (hcaptors.trans hempty)
  | opened hlist hfront hsome =>
    exact .opened (hcaptors.trans hlist) hfront (hcaptor.trans hsome)

/-- The next captor is opened when all before it have been closed. -/
theorem Tally.opens (h : Tally σ 1) :
    Tally { σ with
      captors := σ.captors ++ [({} : Captor)]
      captor := some σ.captors.length } 0 :=
  @Tally.opened _ σ.captors {} rfl h.closed_once rfl

theorem modify_last (front : List Captor) (current : Captor)
    (f : Captor → Captor) :
    (front ++ [current]).modify front.length f = front ++ [f current] := by
  induction front with
  | nil => rfl
  | cons captor front ih => simp [ih]

/-- A method of the current captor is called. -/
theorem Tally.onCaptor (h : Tally σ n) (f : Captor → Captor)
    (pc : StopCapturePc) {k : Nat}
    (hf : ∀ captor, (f captor).closed = captor.closed + k) :
    (n = 1 ∧ σ.onCaptor f pc = (σ, .leaving .throws)) ∨
      Tally (σ.onCaptor f pc).1 (n + k) ∧ (σ.onCaptor f pc).2 = pc := by
  unfold CaptureSession.onCaptor
  cases h with
  | unopened hnone _ =>
    rw [hnone]
    exact Or.inl ⟨rfl, rfl⟩
  | @opened front current hcaptors hfront hsome =>
    right
    rw [hsome]
    refine ⟨?_, rfl⟩
    rw [← hf current]
    refine Tally.opened ?_ hfront rfl
    show σ.captors.modify front.length f = _
    rw [hcaptors, modify_last]

/-! ## The invariant -/

/-- What holds while a thread is at `pc` of `run`. -/
def Phase (σ : CaptureSession) : CapturePc → Prop
  | .setRunning | .selectDevice | .openDevice | .setIdle =>
    σ.state = .runinng ∧ σ.timesClosed = 1
  | .setFilter | .loopPacket | .setError =>
    σ.state = .runinng ∧ σ.timesClosed ≤ 1
  | .testState => (σ.state = .runinng ∧ σ.timesClosed = 0) ∨
    (σ.state = .error ∧ σ.timesClosed ≤ 1)
  | .stopping (.leaving .returns) => σ.state = .runinng ∧ σ.timesClosed = 1
  | .stopping pc => σ.state = .runinng ∧ pc.Pending ∧ σ.timesClosed = 0
  | .setFailed => False
  | .finished => True

/-- What holds while no thread is inside `run`. -/
def Rest (σ : CaptureSession) : Prop :=
  (σ.state = .idle ∧ σ.timesClosed = 1) ∨
    (σ.state = .error ∧
      (σ.timesClosed = 1 ∨ (σ.timesClosed = 0 ∧ σ.StopPending)))

/-- What tidy steps keep. -/
structure Tended (σ : CaptureSession) : Prop where
  tally : ∃ n, Tally σ n
  oneRun : Threads.AtMostOne (· ≠ .finished) σ.runs
  phase : ∀ pc ∈ σ.runs, σ.Phase pc
  rest : (∀ pc ∈ σ.runs, pc = .finished) → σ.Rest

/-! ## Steps of `stop` -/

/-- A step of `stop` closes the captor, or goes on towards that unless there is
nothing to close. -/
inductive StopEffect (σ : CaptureSession) (pc : StopCapturePc) :
    CaptureSession → StopCapturePc → Prop
  | proceeds {k τ pc'} : Tally σ k → Tally τ k →
      (pc.Pending → pc'.Pending ∨ k = 1) → StopEffect σ pc τ pc'
  | closes {k τ} : pc = .close → Tally σ k → Tally τ (k + 1) →
      StopEffect σ pc τ (.leaving .returns)

theorem stopStep_frame (σ : CaptureSession) (pc : StopCapturePc) :
    (σ.stopStep pc).1.state = σ.state ∧ (σ.stopStep pc).1.runs = σ.runs ∧
      (σ.stopStep pc).1.stops = σ.stops := by
  cases pc with
  | entering =>
    simp only [stopStep]
    split <;> exact ⟨rfl, rfl, rfl⟩
  | breakLoop | close =>
    simp only [stopStep, onCaptor]
    split <;> exact ⟨rfl, rfl, rfl⟩
  | _ => exact ⟨rfl, rfl, rfl⟩

theorem stopStep_effect (h : Tally σ n) (pc : StopCapturePc) :
    StopEffect σ pc (σ.stopStep pc).1 (σ.stopStep pc).2 := by
  cases pc with
  | entering =>
    simp only [stopStep]
    split
    · exact .proceeds h h fun _ => Or.inl trivial
    · exact .proceeds h (h.congr rfl rfl) fun _ => Or.inl trivial
  | testCaptor =>
    refine .proceeds h h fun _ => ?_
    cases h with
    | unopened => exact Or.inr rfl
    | opened _ _ hsome => exact Or.inl (by simp [stopStep, hsome,
        StopCapturePc.Pending])
  | breakLoop =>
    rcases h.onCaptor (k := 0) ({ · with loopBroken := true }) .close
      (fun _ => rfl) with ⟨hn, heq⟩ | ⟨htally, hpc⟩
    · simp only [stopStep, heq]
      exact .proceeds h h fun _ => Or.inr hn
    · exact .proceeds h htally fun _ => Or.inl (by
        simp only [stopStep, hpc, StopCapturePc.Pending])
  | close =>
    rcases h.onCaptor (k := 1)
      (fun captor => { captor with closed := captor.closed + 1 })
      (.leaving .returns) (fun _ => rfl) with ⟨hn, heq⟩ | ⟨htally, hpc⟩
    · simp only [stopStep, heq]
      exact .proceeds h h fun _ => Or.inr hn
    · simp only [stopStep, hpc]
      exact .closes rfl h htally
  | leaving | left => exact .proceeds h (h.congr rfl rfl) False.elim

/-- `Phase` looks at the state and at the current captor only. -/
theorem phase_congr {τ : CaptureSession} (hstate : τ.state = σ.state)
    (hclosed : τ.timesClosed = σ.timesClosed) (pc : CapturePc) :
    τ.Phase pc ↔ σ.Phase pc := by
  unfold Phase
  rw [hstate, hclosed]

theorem timesClosed_congr {τ : CaptureSession}
    (hcaptor : τ.captor = σ.captor) (hcaptors : τ.captors = σ.captors) :
    τ.timesClosed = σ.timesClosed := by
  unfold timesClosed
  rw [hcaptor, hcaptors]

/-- An open captor whose loop has not ended may be closed from outside. -/
theorem phase_closed {τ : CaptureSession} (hstate : τ.state = σ.state)
    (hopen : σ.timesClosed = 0) (hclosed : τ.timesClosed = 1) {pc : CapturePc}
    (hpc : ¬ σ.Ending pc) (h : σ.Phase pc) : τ.Phase pc := by
  unfold Phase at h ⊢
  unfold Ending at hpc
  rw [hstate, hclosed]
  split at h <;> simp_all

theorem tended_stops (h : Tended σ) {i : Nat} (hcond : Tidy σ (.stops i)) :
    Tended (σ.step (.stops i)) := by
  cases hi : σ.stops[i]? with
  | none => simpa [step, hi] using h
  | some pc =>
    obtain ⟨⟨n, htally⟩, hone, hphase, hrest⟩ := h
    obtain ⟨hstate, hruns, hstops⟩ := σ.stopStep_frame pc
    have heff := stopStep_effect htally pc
    have hstep : σ.step (.stops i) =
        { (σ.stopStep pc).1 with
          stops := σ.stops.set i (σ.stopStep pc).2 } := by
      simp [step, hi, hstops]
    rw [hstep]
    generalize (σ.stopStep pc).1 = τ at hstate hruns heff ⊢
    generalize (σ.stopStep pc).2 = pc' at heff ⊢
    have hsame : ({ τ with stops := σ.stops.set i pc' } :
        CaptureSession).timesClosed = τ.timesClosed :=
      timesClosed_congr rfl rfl
    cases heff with
    | @proceeds k _ _ hσ hτ hpending =>
      have hclosed := hτ.timesClosed.trans hσ.timesClosed.symm
      refine ⟨⟨k, hτ.congr rfl rfl⟩, hruns.symm ▸ hone, ?_, ?_⟩
      · intro q hq
        exact (phase_congr hstate (hsame.trans hclosed) q).mpr
          (hphase q (hruns ▸ hq))
      · intro hfinished
        rcases hrest (hruns ▸ hfinished) with ⟨hidle, hn⟩ | ⟨herror, hn⟩
        · exact Or.inl ⟨hstate.trans hidle, (hsame.trans hclosed).trans hn⟩
        · refine Or.inr ⟨hstate.trans herror, ?_⟩
          refine hn.imp (hsame.trans hclosed).trans fun hopen => ?_
          refine ⟨(hsame.trans hclosed).trans hopen.1, ?_⟩
          apply Threads.exists_set hi _ (fun _ _ hx => hx) hopen.2
          intro hpc
          refine (hpending hpc).resolve_right fun hk => ?_
          have hzero := hσ.timesClosed.symm.trans hopen.1
          omega
    | @closes k _ hpc hσ hτ =>
      obtain ⟨hopen, hloop⟩ := hcond (hpc ▸ hi)
      have hk : k = 0 := hσ.timesClosed.symm.trans hopen
      subst hk
      refine ⟨⟨1, hτ.congr rfl rfl⟩, hruns.symm ▸ hone, ?_, ?_⟩
      · intro q hq
        have hq' : q ∈ σ.runs := hruns ▸ hq
        exact phase_closed hstate hopen (hsame.trans hτ.timesClosed)
          (hloop q hq') (hphase q hq')
      · intro hfinished
        rcases hrest (hruns ▸ hfinished) with ⟨-, hn⟩ | ⟨herror, -⟩
        · rw [hopen] at hn
          exact absurd hn nofun
        · exact Or.inr ⟨hstate.trans herror,
            Or.inl (hsame.trans hτ.timesClosed)⟩

/-! ## Steps of `run` -/

/-- What a step of `run` from `pc` leads to. -/
structure Advances (σ : CaptureSession) (pc : CapturePc) (τ : CaptureSession)
    (pc' : CapturePc) : Prop where
  tally : ∃ n, Tally τ n
  phase : τ.Phase pc'
  rest : pc ≠ .finished → pc' = .finished → τ.Rest
  runs : τ.runs = σ.runs
  stops : τ.stops = σ.stops

theorem advances_same {n : Nat} (h : Tally σ n) {pc pc' : CapturePc}
    (hphase : σ.Phase pc') (hpc : pc' ≠ .finished) : Advances σ pc σ pc' :=
  ⟨⟨n, h⟩, hphase, fun _ hfinished => absurd hfinished hpc, rfl, rfl⟩

theorem setState_advances {n : Nat} (h : Tally σ n) {before after : CapturePc}
    (hphase : σ.Phase before) (hbefore : before ≠ .finished)
    (state : CaptureState)
    (hafter : ({ σ with state := state } : CaptureSession).Phase after)
    (hrest : after = .finished →
      ({ σ with state := state } : CaptureSession).Rest) :
    Advances σ before (σ.setState state before after).1
      (σ.setState state before after).2 := by
  unfold setState
  split
  · exact advances_same h hphase hbefore
  · exact ⟨⟨n, h.congr rfl rfl⟩, hafter, fun _ => hrest, rfl, rfl⟩

theorem onReturn_advances {n : Nat} (h : Tally σ n) (result : CaptureResult)
    {pc pc' : CapturePc} (hreturns : result = .returns → σ.Phase pc')
    (hpc : pc' ≠ .finished) (hthrows : σ.Phase .setError) :
    Advances σ pc (onReturn result σ σ pc').1
      (onReturn result σ σ pc').2 := by
  cases result with
  | returns => exact advances_same h (hreturns rfl) hpc
  | throws => exact advances_same h hthrows nofun

theorem phase_stopping {pc : StopCapturePc} (hpc : pc.Pending) :
    σ.Phase (.stopping pc) ↔ σ.state = .runinng ∧ σ.timesClosed = 0 := by
  cases pc <;> simp_all [Phase, StopCapturePc.Pending]

theorem stopping_advances {n : Nat} (h : Tally σ n) {pc : StopCapturePc}
    (hphase : σ.Phase (.stopping pc)) (result : CaptureResult) :
    Advances σ (.stopping pc) (σ.runStep result (.stopping pc)).1
      (σ.runStep result (.stopping pc)).2 := by
  by_cases hpc : pc.Pending
  · obtain ⟨hstate, hopen⟩ := (phase_stopping hpc).mp hphase
    obtain ⟨hstate', hruns, hstops⟩ := σ.stopStep_frame pc
    have heff := stopStep_effect h pc
    unfold runStep
    simp only
    generalize σ.stopStep pc = c at hstate' hruns hstops heff ⊢
    obtain ⟨τ, pc'⟩ := c
    simp only at hstate' hruns hstops heff ⊢
    cases heff with
    | @proceeds k _ _ hσ hτ hpending =>
      have hk : k = 0 := hσ.timesClosed.symm.trans hopen
      have hpc' : pc'.Pending := (hpending hpc).resolve_right (by omega)
      have hnext : τ.Phase (.stopping pc') := (phase_stopping hpc').mpr
        ⟨hstate'.trans hstate, hτ.timesClosed.trans hk⟩
      cases pc' with
      | left | leaving => exact absurd hpc' id
      | _ => exact ⟨⟨k, hτ⟩, hnext, fun _ => nofun, hruns, hstops⟩
    | @closes k _ _ hσ hτ =>
      have hk : k = 0 := hσ.timesClosed.symm.trans hopen
      subst hk
      exact ⟨⟨1, hτ⟩, ⟨hstate'.trans hstate, hτ.timesClosed⟩, fun _ => nofun,
        hruns, hstops⟩
  · cases pc with
    | leaving result' =>
      cases result' with
      | returns =>
        exact ⟨⟨n, h.congr rfl rfl⟩, hphase, fun _ => nofun, rfl, rfl⟩
      | throws => exact absurd hphase.2.1 id
    | left => exact absurd hphase.2.1 id
    | _ => exact absurd trivial hpc

theorem runStep_advances {n : Nat} (h : Tally σ n) {pc : CapturePc}
    (hphase : σ.Phase pc) {result : CaptureResult}
    (hloop : pc = .loopPacket → result = .returns → σ.timesClosed = 0)
    (hfailed : pc = .testState → σ.state = .error →
      σ.timesClosed ≠ 0 ∨ σ.StopPending) :
    Advances σ pc (σ.runStep result pc).1 (σ.runStep result pc).2 := by
  cases pc with
  | setRunning =>
    exact setState_advances h hphase nofun .runinng ⟨rfl, hphase.2⟩ nofun
  | selectDevice =>
    exact onReturn_advances h result (fun _ => hphase) nofun
      ⟨hphase.1, Nat.le_of_eq hphase.2⟩
  | openDevice =>
    obtain ⟨hstate, hclosed⟩ := hphase
    cases result with
    | throws =>
      exact advances_same h ⟨hstate, Nat.le_of_eq hclosed⟩ nofun
    | returns =>
      have hn : n = 1 := h.timesClosed.symm.trans hclosed
      subst hn
      have hopen := h.opens.timesClosed
      exact ⟨⟨0, h.opens⟩, ⟨hstate, Nat.le_succ_of_le (Nat.le_of_eq hopen)⟩,
        fun _ => nofun, rfl, rfl⟩
  | setFilter => exact onReturn_advances h result (fun _ => hphase) nofun hphase
  | loopPacket =>
    exact onReturn_advances h result
      (fun hreturns => Or.inl ⟨hphase.1, hloop rfl hreturns⟩) nofun hphase
  | setError =>
    exact setState_advances h hphase nofun .error (Or.inr ⟨rfl, hphase.2⟩) nofun
  | testState =>
    unfold runStep
    simp only
    split
    · exact advances_same h hphase nofun
    · rcases hphase with ⟨hstate, hopen⟩ | ⟨hstate, hclosed⟩
      · rw [if_pos hstate]
        exact advances_same h ⟨hstate, trivial, hopen⟩ nofun
      · rw [if_neg (by simp [hstate])]
        have hrest : σ.timesClosed = 1 ∨
            (σ.timesClosed = 0 ∧ σ.StopPending) := by
          rcases Nat.le_one_iff_eq_zero_or_eq_one.mp hclosed with hzero | hone
          · have hpending := (hfailed rfl hstate).resolve_left (· hzero)
            exact Or.inr ⟨hzero, hpending⟩
          · exact Or.inl hone
        exact ⟨⟨n, h⟩, trivial, fun _ _ => Or.inr ⟨hstate, hrest⟩, rfl, rfl⟩
  | stopping pc => exact stopping_advances h hphase result
  | setIdle =>
    exact setState_advances h hphase nofun .idle trivial
      fun _ => Or.inl ⟨rfl, hphase.2⟩
  | setFailed => exact absurd hphase id
  | finished =>
    exact ⟨⟨n, h⟩, trivial, fun hne => absurd rfl hne, rfl, rfl⟩

/-- All threads but the one that moves have finished. -/
theorem Tended.others (h : Tended σ) {k : Nat} {pc : CapturePc}
    (hk : σ.runs[k]? = some pc) (hpc : pc ≠ .finished) {j : Nat}
    {q : CapturePc} (hj : σ.runs[j]? = some q) (hne : j ≠ k) :
    q = .finished := by
  by_contra hq
  exact hne (h.oneRun j k q pc hj hq hk hpc)

theorem tended_runs (h : Tended σ) {k : Nat} {result : CaptureResult}
    (hcond : Tidy σ (.runs k result)) : Tended (σ.step (.runs k result)) := by
  cases hk : σ.runs[k]? with
  | none => simpa [step, hk] using h
  | some pc =>
    obtain ⟨n, htally⟩ := h.tally
    have hphase := h.phase pc (List.mem_of_getElem? hk)
    have hadv := runStep_advances htally hphase
      (fun hpc => hcond.1 (hpc ▸ hk)) (fun hpc => hcond.2 (hpc ▸ hk))
    have hstep : σ.step (.runs k result) =
        { (σ.runStep result pc).1 with
          runs := σ.runs.set k (σ.runStep result pc).2 } := by
      simp [step, hk, hadv.runs]
    by_cases hpc : pc = .finished
    · -- a thread that has finished does nothing
      have hsame : σ.step (.runs k result) = σ := by
        rw [hstep, hpc]
        show { σ with runs := σ.runs.set k .finished } = σ
        obtain ⟨hlt, hget⟩ := List.getElem?_eq_some_iff.mp (hpc ▸ hk)
        rw [← hget, List.set_getElem_self]
      rw [hsame]
      exact h
    rw [hstep]
    generalize (σ.runStep result pc).1 = τ at hadv ⊢
    generalize (σ.runStep result pc).2 = pc' at hadv ⊢
    obtain ⟨⟨m, hτ⟩, hphase', hrest', -, hstops⟩ := hadv
    have hsame : ({ τ with runs := σ.runs.set k pc' } :
        CaptureSession).timesClosed = τ.timesClosed :=
      timesClosed_congr rfl rfl
    refine ⟨⟨m, hτ.congr rfl rfl⟩, h.oneRun.set hk (fun _ => hpc), ?_, ?_⟩
    · intro q hq
      rw [phase_congr rfl hsame]
      obtain ⟨j, hj⟩ := List.mem_iff_getElem?.mp hq
      rcases Threads.of_getElem?_set hj with ⟨-, rfl⟩ | ⟨hne, hj⟩
      · exact hphase'
      · obtain rfl := h.others hk hpc hj hne
        trivial
    · intro hfinished
      have hpc' := hfinished pc' (Threads.mem_set hk pc')
      unfold Rest StopPending
      rw [hsame]
      exact hrest' hpc hpc'

/-! ## The other steps and whole runs -/

theorem tended_start (h : Tended σ) : Tended σ.start := by
  unfold start
  split_ifs with hlocked hidle
  · exact h
  · obtain ⟨n, htally⟩ := h.tally
    -- inside `run` the session is idle nowhere
    have hnone : ∀ pc ∈ σ.runs, ¬ pc ≠ .finished := by
      intro pc hpc hne
      have hphase := h.phase pc hpc
      unfold Phase at hphase
      split at hphase <;> simp_all
    have hrest := h.rest fun pc hpc => not_not.mp (hnone pc hpc)
    have hclosed : σ.timesClosed = 1 := by
      rcases hrest with ⟨-, hclosed⟩ | ⟨herror, -⟩
      · exact hclosed
      · exact absurd (hidle.symm.trans herror) nofun
    refine ⟨⟨n, htally.congr rfl rfl⟩, Threads.atMostOne_append hnone _, ?_, ?_⟩
    · intro pc hpc
      rw [List.mem_append, List.mem_singleton] at hpc
      rcases hpc with hpc | rfl
      · obtain rfl := not_not.mp (hnone pc hpc)
        trivial
      · exact ⟨rfl, hclosed⟩
    · intro hfinished
      exact absurd (hfinished .setRunning (by simp)) nofun
  · exact h

theorem tended_stop (h : Tended σ) :
    Tended { σ with stops := σ.stops ++ [.entering] } := by
  obtain ⟨⟨n, htally⟩, hone, hphase, hrest⟩ := h
  refine ⟨⟨n, htally.congr rfl rfl⟩, hone, hphase, fun hfinished => ?_⟩
  refine (hrest hfinished).imp id fun herror => ⟨herror.1, ?_⟩
  refine herror.2.imp id fun hopen => ⟨hopen.1, ?_⟩
  obtain ⟨pc, hpc, hpending⟩ := hopen.2
  exact ⟨pc, List.mem_append_left _ hpc, hpending⟩

theorem tended_step (h : Tended σ) (a : Action) (hcond : σ.Tidy a) :
    Tended (σ.step a) := by
  cases a with
  | start => exact tended_start h
  | stop => exact tended_stop h
  | stops i => exact tended_stops h hcond
  | runs k result => exact tended_runs h hcond

theorem tended_run {actions : List Action}
    (h : machine.Along Tidy actions) : Tended (machine.run actions) := by
  apply Machine.along_invariant machine _ (fun σ a hσ => tended_step hσ a) h
  refine ⟨⟨1, .unopened rfl rfl⟩, Threads.atMostOne_nil _, nofun, fun _ => ?_⟩
  exact Or.inl ⟨rfl, rfl⟩

/-- In a quiet session that is tended every captor was closed once. -/
theorem Tended.closedOnce (h : Tended σ) : ClosedOnce σ := by
  intro hquiet _
  obtain ⟨n, htally⟩ := h.tally
  have hnone : ¬ σ.StopPending := by
    intro hpending
    obtain ⟨pc, hpc, hpending⟩ := hpending
    rcases hquiet.1 pc hpc with rfl | rfl <;> exact hpending
  have hclosed : σ.timesClosed = 1 := by
    rcases h.rest hquiet.2 with ⟨-, hclosed⟩ | ⟨-, hclosed | ⟨-, hpending⟩⟩
    · exact hclosed
    · exact hclosed
    · exact absurd hpending hnone
  obtain rfl : n = 1 := htally.timesClosed.symm.trans hclosed
  exact htally.closed_once

/-- Every captor is closed exactly once if from outside a captor is closed only
while its loop has not ended, the loops of closed captors end in no other way
than an exception, and after an exception somebody closes the captor. -/
theorem captors_closed_once {actions : List Action}
    (h : machine.Along Tidy actions) : ClosedOnce (machine.run actions) :=
  (tended_run h).closedOnce

/-- The filter is not accepted and `stop` closes the captor. -/
def failedCapture : List Action :=
  [.start, .runs 0 .returns, .runs 0 .returns, .runs 0 .returns,
    .runs 0 .throws, .runs 0 .returns, .stop, .runs 0 .returns] ++
  List.replicate 5 (.stops 0)

theorem failed_capture_closed : ClosedOnce (machine.run failedCapture) ∧
    (machine.run failedCapture).Quiet ∧
    (machine.run failedCapture).captors = [⟨true, 1⟩] :=
  ⟨captors_closed_once (by decide), by decide, by decide⟩

/-- A capture that is stopped while it is in the loop. -/
def stoppedCapture : List Action :=
  .start :: List.replicate 4 (.runs 0 .returns) ++
    .stop :: List.replicate 5 (.stops 0) ++ List.replicate 9 (.runs 0 .returns)

theorem stopped_capture_closed_twice :
    ¬ ∀ actions, ClosedOnce (machine.run actions) := by
  intro h
  have hclosed := h stoppedCapture (by decide) (Or.inl (by decide))
    { loopBroken := true, closed := 2 } (by decide)
  exact absurd hclosed (by decide)

end CaptureSession

end Sipana
