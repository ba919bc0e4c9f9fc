import Mathlib.Data.List.TakeWhile
import Sipana.Agent.Trace

/-!
# Timing read off the finished trace

The handler writes the times of a session one by one, guarded by the state the
session has. `BatchTiming` states what the times should be in terms of the
message list of the finished session alone. `Traced` is what links the two
while the session is live: the times so far are those of the messages so far,
and the state says which of the milestones have been passed.
-/

namespace Sipana

/-! ## Milestones in a list of messages -/

namespace SIPMessage

def isResponse : SIPMessage → Bool
  | request _ => false
  | response _ => true

/-- A BYE or CANCEL request. -/
def disconnects : SIPMessage → Bool
  | request q => q.method = Request.BYE ∨ q.method = Request.CANCEL
  | response _ => false

/-- A 200 response to INVITE. -/
def answers : SIPMessage → Bool
  | request _ => false
  | response p =>
    p.statusCode = Response.OK ∧ p.relatedRequestMethod = Request.INVITE

/-- A 180 or 183 response, or a 200 response to INVITE. -/
def setsUp : SIPMessage → Bool
  | request _ => false
  | response p =>
    p.statusCode = Response.RINGING ∨
      p.statusCode = Response.SESSION_PROGRESS ∨ (response p).answers

end SIPMessage

/-- The time of the first message that meets `P`, and 0 if there is none. -/
def firstTime (P : SIPMessage → Bool) (seg : List SIPMessage) : Int :=
  ((seg.find? P).map SIPMessage.time).getD 0

/-- The messages before the first BYE or CANCEL request. -/
def beforeDisconnect (seg : List SIPMessage) : List SIPMessage :=
  seg.takeWhile (!·.disconnects)

/-- The times of `s` are those of its finished message list `seg`. -/
structure BatchTiming (seg : List SIPMessage) (s : SIPSession) : Prop where
  start : ∃ m, seg.head? = some m ∧ s.startTime = m.time
  finish : ∃ m, seg.getLast? = some m ∧ s.endTime = m.time
  firstResponse : ∃ m, seg.find? SIPMessage.isResponse = some m ∧
    s.firstResponseTime = m.time
  setup : s.setupTime = firstTime SIPMessage.setsUp (beforeDisconnect seg)
  established :
    s.establishedTime = firstTime SIPMessage.answers (beforeDisconnect seg)

/-! ### One more message -/

section Snoc

variable {P : SIPMessage → Bool} {seg : List SIPMessage} {m : SIPMessage}

theorem firstTime_snoc_of_not (h : P m = false) :
    firstTime P (seg ++ [m]) = firstTime P seg := by
  simp [firstTime, List.find?_append, h]

theorem firstTime_snoc_of_mem {x : SIPMessage} (hx : x ∈ seg) (h : P x = true) :
    firstTime P (seg ++ [m]) = firstTime P seg := by
  obtain ⟨y, hy⟩ := Option.isSome_iff_exists.mp
    (List.find?_isSome.mpr ⟨x, hx, h⟩)
  simp [firstTime, List.find?_append, hy]

theorem firstTime_snoc_first (hseg : ∀ x ∈ seg, P x = false)
    (h : P m = true) : firstTime P (seg ++ [m]) = m.time := by
  have hnone : seg.find? P = none := by
    rw [List.find?_eq_none]
    intro x hx
    simp [hseg x hx]
  simp [firstTime, List.find?_append, hnone, h]

theorem beforeDisconnect_of_none
    (h : ∀ x ∈ seg, x.disconnects = false) : beforeDisconnect seg = seg := by
  rw [beforeDisconnect, List.takeWhile_eq_self_iff]
  intro x hx
  simp [h x hx]

/-- After the first BYE or CANCEL the prefix is complete. -/
theorem beforeDisconnect_snoc_of_mem {x : SIPMessage} (hx : x ∈ seg)
    (h : x.disconnects = true) :
    beforeDisconnect (seg ++ [m]) = beforeDisconnect seg := by
  have hstop : seg.takeWhile (!·.disconnects) ≠ seg := by
    intro hall
    have := List.takeWhile_eq_self_iff.mp hall x hx
    simp [h] at this
  have hlength : (seg.takeWhile (!·.disconnects)).length ≠ seg.length :=
    fun hlen => hstop ((List.takeWhile_prefix _).eq_of_length hlen)
  rw [beforeDisconnect, List.takeWhile_append, if_neg hlength, beforeDisconnect]

theorem beforeDisconnect_snoc_disconnect (h : m.disconnects = true) :
    beforeDisconnect (seg ++ [m]) = beforeDisconnect seg := by
  rw [beforeDisconnect, List.takeWhile_append]
  split
  · rename_i hlen
    have hall := (List.takeWhile_prefix _).eq_of_length hlen
    simp [beforeDisconnect, h, hall]
  · rfl

/-- A message that is no `P` does not matter. -/
theorem firstTime_before_snoc_of_not (h : P m = false) :
    firstTime P (beforeDisconnect (seg ++ [m])) =
      firstTime P (beforeDisconnect seg) := by
  by_cases hex : ∃ x ∈ seg, x.disconnects = true
  · obtain ⟨x, hx, hdis⟩ := hex
    rw [beforeDisconnect_snoc_of_mem hx hdis]
  · have hnone : ∀ x ∈ seg, x.disconnects = false := by
      intro x hx
      rw [Bool.eq_false_iff]
      exact fun hdis => hex ⟨x, hx, hdis⟩
    by_cases hm : m.disconnects = true
    · rw [beforeDisconnect_snoc_disconnect hm]
    · have hsnoc : ∀ x ∈ seg ++ [m], x.disconnects = false := by
        intro x hx
        rcases List.mem_append.mp hx with hold | hnew
        · exact hnone x hold
        · rw [List.mem_singleton.mp hnew, Bool.eq_false_iff]
          exact hm
      rw [beforeDisconnect_of_none hsnoc, beforeDisconnect_of_none hnone,
        firstTime_snoc_of_not h]

end Snoc

/-! ## Live sessions -/

namespace SIPResponse

theorem answers_iff {p : SIPResponse} :
    (SIPMessage.response p).answers = true ↔ p.kind = .inviteOK := by
  rw [SIPMessage.answers, decide_eq_true_eq]
  refine ⟨?_, kind_inviteOK⟩
  intro h
  have hfinal : 200 ≤ p.statusCode := h.1 ▸ (by decide)
  rw [kind, if_neg (not_ringing_of_final hfinal), if_pos h.1, if_pos h.2]

theorem setsUp_iff {p : SIPResponse} :
    (SIPMessage.response p).setsUp = true ↔
      p.kind = .ringing ∨ p.kind = .inviteOK := by
  rw [SIPMessage.setsUp, decide_eq_true_eq, ← or_assoc, answers_iff]
  refine or_congr_left ⟨?_, kind_ringing⟩
  intro h
  rw [kind, if_pos h]

end SIPResponse

theorem SIPRequest.disconnects_iff {q : SIPRequest} :
    (SIPMessage.request q).disconnects = true ↔ q.kind = .disconnect := by
  rw [SIPMessage.disconnects, decide_eq_true_eq, kind_disconnect_iff]

theorem SIPMessage.setsUp_of_answers {m : SIPMessage}
    (h : m.answers = true) : m.setsUp = true := by
  cases m with
  | request q => simp [answers] at h
  | response p =>
    rw [SIPResponse.answers_iff] at h
    exact SIPResponse.setsUp_iff.mpr (Or.inr h)

/-- The times of `s` are those of its messages so far. -/
structure TimesMatch (s : SIPSession) : Prop where
  start : ∃ m, s.messages.head? = some m ∧ s.startTime = m.time
  firstResponse :
    s.firstResponseTime = firstTime SIPMessage.isResponse s.messages
  setup :
    s.setupTime = firstTime SIPMessage.setsUp (beforeDisconnect s.messages)
  established :
    s.establishedTime =
      firstTime SIPMessage.answers (beforeDisconnect s.messages)

/-- What the state of a live session tells about its messages. -/
structure Phase (state : SIPSessionState) (seg : List SIPMessage) : Prop where
  connected : state ≠ .disconnecting → ∀ m ∈ seg, m.disconnects = false
  initiated : state = .initiated → ∀ m ∈ seg, m.setsUp = false
  provisioned : state = .provisioned →
    (∃ m ∈ seg, m.setsUp = true) ∧ ∀ m ∈ seg, m.answers = false
  established : state = .established → ∃ m ∈ seg, m.answers = true
  disconnecting : state = .disconnecting → ∃ m ∈ seg, m.disconnects = true

structure Traced (s : SIPSession) : Prop extends TimesMatch s where
  positive : ∀ m ∈ s.messages, 0 < m.time
  phase : Phase s.state s.messages

namespace Phase

variable {state : SIPSessionState} {seg : List SIPMessage} {m : SIPMessage}

theorem forall_snoc {P : SIPMessage → Bool} (h : ∀ x ∈ seg, P x = false)
    (hm : P m = false) : ∀ x ∈ seg ++ [m], P x = false := by
  intro x hx
  rcases List.mem_append.mp hx with hold | hnew
  · exact h x hold
  · rwa [List.mem_singleton.mp hnew]

theorem exists_snoc {P : SIPMessage → Bool} (h : ∃ x ∈ seg, P x = true) :
    ∃ x ∈ seg ++ [m], P x = true := by
  obtain ⟨x, hx, hP⟩ := h
  exact ⟨x, List.mem_append_left _ hx, hP⟩

/-- A message that marks nothing the state has not passed. -/
theorem keep (h : Phase state seg) (hdis : m.disconnects = false)
    (hsetup : state = .initiated → m.setsUp = false)
    (hans : state = .provisioned → m.answers = false) :
    Phase state (seg ++ [m]) where
  connected hs := forall_snoc (h.connected hs) hdis
  initiated hs := forall_snoc (h.initiated hs) (hsetup hs)
  provisioned hs := ⟨exists_snoc (h.provisioned hs).1,
    forall_snoc (h.provisioned hs).2 (hans hs)⟩
  established hs := exists_snoc (h.established hs)
  disconnecting hs := exists_snoc (h.disconnecting hs)

/-- Nobody has answered before the call was set up. -/
theorem unanswered (h : Phase .initiated seg) :
    ∀ m ∈ seg, m.answers = false := by
  intro m hm
  rw [Bool.eq_false_iff]
  intro hans
  have hset := SIPMessage.setsUp_of_answers hans
  rw [h.initiated rfl m hm] at hset
  exact Bool.noConfusion hset

theorem ring (h : Phase .initiated seg) (hdis : m.disconnects = false)
    (hsetup : m.setsUp = true) (hans : m.answers = false) :
    Phase .provisioned (seg ++ [m]) where
  connected _ := forall_snoc (h.connected nofun) hdis
  initiated := nofun
  provisioned _ := ⟨⟨m, by simp, hsetup⟩, forall_snoc h.unanswered hans⟩
  established := nofun
  disconnecting := nofun

theorem answer (h : Phase state seg) (hs : state ≠ .disconnecting)
    (hdis : m.disconnects = false) (hans : m.answers = true) :
    Phase .established (seg ++ [m]) where
  connected _ := forall_snoc (h.connected hs) hdis
  initiated := nofun
  provisioned := nofun
  established _ := ⟨m, by simp, hans⟩
  disconnecting := nofun

theorem disconnect (hdis : m.disconnects = true) :
    Phase .disconnecting (seg ++ [m]) where
  connected hs := absurd rfl hs
  initiated := nofun
  provisioned := nofun
  established := nofun
  disconnecting _ := ⟨m, by simp, hdis⟩

end Phase

namespace Traced

variable {s : SIPSession}

/-- As long as the session is not disconnecting the prefix is everything. -/
theorem before_snoc (h : Traced s) (hs : s.state ≠ .disconnecting)
    (p : SIPResponse) :
    beforeDisconnect (s.messages ++ [.response p]) =
      s.messages ++ [.response p] := by
  apply beforeDisconnect_of_none
  exact Phase.forall_snoc (h.phase.connected hs) rfl

/-- The first message that meets `P`, when none has met it before. -/
theorem first_of_none (h : Traced s) (hs : s.state ≠ .disconnecting)
    {P : SIPMessage → Bool} (hnone : ∀ m ∈ s.messages, P m = false)
    {p : SIPResponse} (hp : P (.response p) = true) :
    firstTime P (beforeDisconnect (s.messages ++ [.response p])) = p.time := by
  rw [h.before_snoc hs, firstTime_snoc_first hnone hp]
  rfl

/-- A milestone is passed once: the first message that meets `P` is among the
messages so far, or the prefix is complete. -/
theorem first_of_passed (h : Traced s) {P : SIPMessage → Bool}
    (hpassed : s.state = .disconnecting ∨ ∃ m ∈ s.messages, P m = true)
    (p : SIPResponse) :
    firstTime P (beforeDisconnect (s.messages ++ [.response p])) =
      firstTime P (beforeDisconnect s.messages) := by
  by_cases hs : s.state = .disconnecting
  · obtain ⟨m, hm, hdis⟩ := h.phase.disconnecting hs
    rw [beforeDisconnect_snoc_of_mem hm hdis]
  · obtain ⟨m, hm, hP⟩ := hpassed.resolve_left hs
    rw [h.before_snoc hs, beforeDisconnect_of_none (h.phase.connected hs),
      firstTime_snoc_of_mem hm hP]

/-- Past INITIATED the setup time is settled. -/
theorem setup_passed (h : Traced s) (hopen : s.IsOpen)
    (hs : s.state ≠ .initiated) :
    s.state = .disconnecting ∨ ∃ m ∈ s.messages, m.setsUp = true := by
  cases hstate : s.state with
  | initiated => exact absurd hstate hs
  | provisioned => exact Or.inr (h.phase.provisioned hstate).1
  | established =>
    obtain ⟨m, hm, hans⟩ := h.phase.established hstate
    exact Or.inr ⟨m, hm, SIPMessage.setsUp_of_answers hans⟩
  | disconnecting => exact Or.inl rfl
  | _ => simp [SIPSession.IsOpen, hstate, SIPSessionState.rank] at hopen

/-- The first response is noted once. -/
theorem noted (h : Traced s) (p : SIPResponse) :
    (s.noteResponse p.time).firstResponseTime =
      firstTime SIPMessage.isResponse (s.messages ++ [.response p]) := by
  rw [SIPSession.noteResponse_firstResponseTime]
  by_cases hex : ∃ m ∈ s.messages, m.isResponse = true
  · obtain ⟨m, hm, hresp⟩ := hex
    obtain ⟨x, hx⟩ := Option.isSome_iff_exists.mp
      (List.find?_isSome.mpr ⟨m, hm, hresp⟩)
    have hset : s.firstResponseTime = x.time := by
      rw [h.firstResponse, firstTime, hx]
      rfl
    -- capture times are positive, so the time is not taken for a missing one
    have hpos := h.positive x (List.mem_of_find?_eq_some hx)
    rw [firstTime_snoc_of_mem hm hresp, ← h.firstResponse, if_neg (by omega)]
  · have hnone : ∀ m ∈ s.messages, m.isResponse = false := by
      intro m hm
      rw [Bool.eq_false_iff]
      exact fun hresp => hex ⟨m, hm, hresp⟩
    have hzero : s.firstResponseTime = 0 := by
      have hfind : s.messages.find? SIPMessage.isResponse = none := by
        rw [List.find?_eq_none]
        intro m hm
        simp [hnone m hm]
      rw [h.firstResponse, firstTime, hfind]
      rfl
    rw [firstTime_snoc_first hnone rfl, if_pos hzero]
    rfl

/-- The setup time after a response, except where the response closes the
session and overwrites it. -/
theorem setup_settle (h : Traced s) (hopen : s.IsOpen) (p : SIPResponse)
    (hkind : p.kind ≠ .otherOK ∧ p.kind ≠ .failure) :
    (s.settle p.kind p.time).setupTime = firstTime SIPMessage.setsUp
      (beforeDisconnect (s.messages ++ [.response p])) := by
  by_cases hset : (SIPMessage.response p).setsUp = true
  · by_cases hstate : s.state = .initiated
    · rw [h.first_of_none (by simp [hstate]) (h.phase.initiated hstate) hset]
      rcases SIPResponse.setsUp_iff.mp hset with hk | hk <;>
        simp [hk, SIPSession.settle, hstate]
    · rw [h.first_of_passed (h.setup_passed hopen hstate), ← h.setup]
      rcases SIPResponse.setsUp_iff.mp hset with hk | hk
      · simp [hk, SIPSession.settle, hstate]
      · rw [hk]
        unfold SIPSession.settle
        simp only
        split
        · exact absurd ‹_› hstate
        · rfl
        · rfl
  · rw [firstTime_before_snoc_of_not (Bool.eq_false_iff.mpr hset), ← h.setup]
    rw [SIPResponse.setsUp_iff, not_or] at hset
    cases hk : p.kind <;> simp_all [SIPSession.settle]

/-- The time at which the session was established, after a response. -/
theorem established_settle (h : Traced s) (hopen : s.IsOpen)
    (p : SIPResponse) :
    (s.settle p.kind p.time).establishedTime = firstTime SIPMessage.answers
      (beforeDisconnect (s.messages ++ [.response p])) := by
  by_cases hans : (SIPMessage.response p).answers = true
  · have hk := SIPResponse.answers_iff.mp hans
    rw [hk]
    cases hstate : s.state with
    | initiated =>
      have hphase := h.phase
      rw [hstate] at hphase
      rw [h.first_of_none (by simp [hstate]) hphase.unanswered hans]
      simp [SIPSession.settle, hstate]
    | provisioned =>
      rw [h.first_of_none (by simp [hstate])
        (h.phase.provisioned hstate).2 hans]
      simp [SIPSession.settle, hstate]
    | established =>
      rw [h.first_of_passed (Or.inr (h.phase.established hstate)),
        ← h.established]
      simp [SIPSession.settle, hstate]
    | disconnecting =>
      rw [h.first_of_passed (Or.inl hstate), ← h.established]
      simp [SIPSession.settle, hstate]
    | _ => simp [SIPSession.IsOpen, hstate, SIPSessionState.rank] at hopen
  · rw [firstTime_before_snoc_of_not (Bool.eq_false_iff.mpr hans),
      ← h.established]
    rw [SIPResponse.answers_iff] at hans
    cases hk : p.kind <;> simp_all [SIPSession.settle]
    split <;> rfl

/-! ### One more message -/

theorem ofRequest {q : SIPRequest} (hpos : 0 < q.time)
    (hkind : q.kind = .other ∨ q.kind = .invite) :
    Traced (SIPSession.ofRequest q) := by
  have hdis : (SIPMessage.request q).disconnects = false := by
    rw [Bool.eq_false_iff, ne_eq, SIPRequest.disconnects_iff]
    rcases hkind with hk | hk <;> simp [hk]
  have hmem : ∀ m ∈ (SIPSession.ofRequest q).messages, m = .request q :=
    fun m hm => List.mem_singleton.mp hm
  have hbefore : beforeDisconnect (SIPSession.ofRequest q).messages =
      [.request q] := by
    apply beforeDisconnect_of_none
    intro m hm
    rwa [hmem m hm]
  refine ⟨⟨⟨.request q, rfl, rfl⟩, rfl, ?_, ?_⟩, ?_, ?_, ?_, nofun, nofun,
    nofun⟩
  · rw [hbefore]
    rfl
  · rw [hbefore]
    rfl
  · intro m hm
    rwa [hmem m hm]
  · intro _ m hm
    rwa [hmem m hm]
  · intro _ m hm
    rw [hmem m hm]
    rfl

/-- The times after a response, except where the response closes the session
and overwrites its setup time. -/
theorem timesMatch_absorb (h : Traced s) (hopen : s.IsOpen) (p : SIPResponse)
    (hkind : p.kind ≠ .otherOK ∧ p.kind ≠ .failure) :
    TimesMatch (s.absorb (.response p)) := by
  obtain ⟨-, hsetup, hest⟩ := s.absorb_milestones p
  have hmsgs := s.absorb_messages (.response p)
  refine ⟨?_, ?_, ?_, ?_⟩
  · obtain ⟨m, hm, hstart⟩ := h.start
    refine ⟨m, by rw [hmsgs]; simp [List.head?_append, hm], ?_⟩
    rw [← hstart, s.absorb_response, SIPSession.settle_startTime,
      SIPSession.noteResponse_startTime]
    rfl
  · rw [hmsgs, ← h.noted p, s.absorb_response,
      SIPSession.settle_firstResponseTime,
      SIPSession.noteResponse_firstResponseTime,
      SIPSession.noteResponse_firstResponseTime]
    rfl
  · rw [hsetup, hmsgs]
    exact h.setup_settle hopen p hkind
  · rw [hest, hmsgs]
    exact h.established_settle hopen p

/-- A request is no milestone but the beginning of the disconnection. -/
theorem timesMatch_request (h : Traced s) (q : SIPRequest) :
    TimesMatch (s.addMessage (.request q)) where
  start := by
    obtain ⟨m, hm, hstart⟩ := h.start
    exact ⟨m, by simp [SIPSession.addMessage, List.head?_append, hm], hstart⟩
  firstResponse := h.firstResponse.trans (firstTime_snoc_of_not rfl).symm
  setup := h.setup.trans (firstTime_before_snoc_of_not rfl).symm
  established := h.established.trans (firstTime_before_snoc_of_not rfl).symm

theorem positive_snoc (h : Traced s) {m : SIPMessage} (hpos : 0 < m.time) :
    ∀ x ∈ s.messages ++ [m], 0 < x.time := by
  intro x hx
  rcases List.mem_append.mp hx with hold | hnew
  · exact h.positive x hold
  · rwa [List.mem_singleton.mp hnew]

/-- What the state tells after a response that leaves the session open. -/
theorem phase_settle (h : Traced s) {p : SIPResponse}
    (hclose : p.kind.closes = false) :
    Phase (s.settle p.kind p.time).state
      (s.messages ++ [.response p]) := by
  have hsetup := SIPResponse.setsUp_iff (p := p)
  have hans := SIPResponse.answers_iff (p := p)
  have hphase := h.phase
  cases hk : p.kind with
  | ringing =>
    rw [hk] at hsetup hans
    simp only [reduceCtorEq, iff_false, Bool.not_eq_true] at hans
    by_cases hs : s.state = .initiated
    · rw [hs] at hphase
      simpa [SIPSession.settle, hs] using
        hphase.ring rfl (hsetup.mpr (Or.inl rfl)) hans
    · have hkeep := hphase.keep rfl (fun hi => absurd hi hs) fun _ => hans
      simpa [SIPSession.settle, hs] using hkeep
  | inviteOK =>
    rw [hk] at hsetup hans
    have hanswers := hans.mpr rfl
    cases hs : s.state with
    | initiated | provisioned =>
      have hans' := hphase.answer (by simp [hs]) rfl hanswers
      simpa [SIPSession.settle, hs] using hans'
    | _ =>
      rw [hs] at hphase
      have hkeep := hphase.keep (m := .response p) rfl (by simp) (by simp)
      simpa [SIPSession.settle, hs] using hkeep
  | passive =>
    rw [hk] at hsetup hans
    simp only [reduceCtorEq, or_self, iff_false, Bool.not_eq_true]
      at hsetup hans
    exact hphase.keep rfl (fun _ => hsetup) fun _ => hans
  | _ => simp [hk, ResponseKind.closes] at hclose

theorem absorb_response (h : Traced s) (hopen : s.IsOpen) {p : SIPResponse}
    (hpos : 0 < p.time) (hclose : p.kind.closes = false) :
    Traced (s.absorb (.response p)) := by
  have hkind : p.kind ≠ .otherOK ∧ p.kind ≠ .failure := by
    refine ⟨?_, ?_⟩ <;> intro hk <;> simp [hk, ResponseKind.closes] at hclose
  refine ⟨h.timesMatch_absorb hopen p hkind, ?_, ?_⟩
  · rw [s.absorb_messages]
    exact h.positive_snoc hpos
  · rw [s.absorb_messages, (s.absorb_milestones p).1]
    exact h.phase_settle hclose

theorem absorb_request (h : Traced s) {q : SIPRequest} (hpos : 0 < q.time) :
    Traced (s.absorb (.request q)) := by
  have htimes := h.timesMatch_request q
  have hpositive := h.positive_snoc (m := .request q) hpos
  by_cases hkind : q.kind = .disconnect
  · rw [s.absorb_disconnect hkind]
    exact ⟨⟨htimes.start, htimes.firstResponse, htimes.setup,
      htimes.established⟩, hpositive,
      Phase.disconnect (SIPRequest.disconnects_iff.mpr hkind)⟩
  · rw [s.absorb_request hkind]
    have hdis : (SIPMessage.request q).disconnects = false := by
      rwa [Bool.eq_false_iff, ne_eq, SIPRequest.disconnects_iff]
    exact ⟨htimes, hpositive, h.phase.keep hdis (fun _ => rfl) fun _ => rfl⟩

/-- A 200 to BYE or CANCEL ends the session with the times of its trace. -/
theorem batchTiming_absorb (h : Traced s) (hopen : s.IsOpen) {p : SIPResponse}
    (hkind : p.kind = .byeOK ∨ p.kind = .cancelOK) :
    BatchTiming (s.absorb (.response p)).messages (s.absorb (.response p)) := by
  have htimes := h.timesMatch_absorb hopen p
    (by rcases hkind with hk | hk <;> simp [hk])
  refine ⟨htimes.start, ⟨.response p, by simp, ?_⟩, ?_, htimes.setup,
    htimes.established⟩
  · rw [s.absorb_response]
    rcases hkind with hk | hk <;> rw [hk] <;> rfl
  · obtain ⟨m, hm⟩ := Option.isSome_iff_exists.mp
      (List.find?_isSome.mpr ⟨.response p, by simp, rfl⟩ :
        ((s.absorb (.response p)).messages.find?
          SIPMessage.isResponse).isSome)
    refine ⟨m, hm, ?_⟩
    rw [htimes.firstResponse, firstTime, hm]
    rfl

end Traced

/-! ## Runs -/

namespace SIPHandler

/-- With positive capture times every live session is traced. -/
theorem traced_of_live {calls : List Call}
    (hpos : ∀ call ∈ calls, 0 < call.message.time) {c : String}
    {r : SessionRef} (h : (run calls).getSession c = some r) :
    Traced ((run calls).heap r) := by
  refine live_induction (fun calls _ s =>
    (∀ call ∈ calls, 0 < call.message.time) → Traced s) ?_ ?_ ?_
    calls c r h hpos
  · intro calls call q hm hkind _ hpos
    have hq := hpos call (by simp)
    rw [hm] at hq
    exact Traced.ofRequest hq hkind
  · intro calls call r s ih hopen _ hclose _ hpos
    have hs := ih fun a ha => hpos a (by simp [ha])
    have hnow := hpos call (by simp)
    cases hm : call.message with
    | request q =>
      rw [hm] at hnow
      exact hs.absorb_request hnow
    | response p =>
      rw [hm] at hnow hclose
      exact hs.absorb_response hopen hnow hclose
  · intro calls call r s ih _ hpos
    exact ih fun a ha => hpos a (by simp [ha])

/-- A session handed over by a 200 response to BYE or CANCEL carries the times
that can be read off its message list, and the state of the way it ended. -/
theorem incremental_timing (calls : List Call)
    (hpos : ∀ call ∈ calls, 0 < call.message.time) (j : Nat) (r : SessionRef)
    (s : SIPSession) (p : SIPResponse)
    (hj : (calls.map Call.message)[j]? = some (.response p))
    (hok : p.statusCode = Response.OK)
    (hrel : p.relatedRequestMethod = Request.BYE ∨
      p.relatedRequestMethod = Request.CANCEL)
    (h : HandsOver calls j r s) :
    BatchTiming s.messages s ∧
      (p.relatedRequestMethod = Request.BYE → s.state = .completed) ∧
      (p.relatedRequestMethod = Request.CANCEL → s.state = .canceled) := by
  obtain ⟨call, hcall, hlive, -, rfl, -⟩ := h.live
  have hp : call.message = .response p := by
    rw [List.getElem?_map, hcall, Option.map_some] at hj
    exact Option.some.inj hj
  have hbye : p.relatedRequestMethod = Request.BYE → p.kind = .byeOK := by
    intro hr
    rw [SIPResponse.kind_of_ok hok, hr]
    decide
  have hcancel : p.relatedRequestMethod = Request.CANCEL →
      p.kind = .cancelOK := by
    intro hr
    rw [SIPResponse.kind_of_ok hok, hr]
    decide
  rw [hp] at hlive ⊢
  have htraced : Traced ((run (calls.take j)).heap r) :=
    traced_of_live (fun a ha => hpos a (List.mem_of_mem_take ha)) hlive
  have hopen := (wf_run (calls.take j)).isOpen _ _ hlive
  refine ⟨htraced.batchTiming_absorb hopen (hrel.imp hbye hcancel), ?_, ?_⟩
  · intro hr
    rw [SIPSession.absorb_response, hbye hr]
    rfl
  · intro hr
    rw [SIPSession.absorb_response, hcancel hr]
    rfl

/-- A call that rings twice, is answered and is hung up. -/
theorem incremental_timing_hung_up :
    ∃ s, HandsOver [.request "INVITE" "a" 1, .response 180 "INVITE" "a" 2,
        .response 183 "INVITE" "a" 3, .response 200 "INVITE" "a" 4,
        .request "BYE" "a" 5, .response 200 "BYE" "a" 6] 5 0 s ∧
      BatchTiming s.messages s := by
  let calls : List Call := [.request "INVITE" "a" 1,
    .response 180 "INVITE" "a" 2, .response 183 "INVITE" "a" 3,
    .response 200 "INVITE" "a" 4, .request "BYE" "a" 5,
    .response 200 "BYE" "a" 6]
  have hover : HandsOver calls 5 0 ((run calls).heap 0) := by decide
  exact ⟨_, hover, (incremental_timing calls (by decide) 5 0 _
    { callID := "a", time := 6, statusCode := 200,
      relatedRequestMethod := "BYE" } rfl rfl (Or.inl rfl) hover).1⟩

end SIPHandler

end Sipana
