import Mathlib.Data.List.TakeWhile
import Sipana.Server.Attachment

/-!
# What ends up in the store

`Attachment` says when a standalone message is kept. This module says what the
store holds after any sequence of messages: one row for each session, in the
order of arrival, with the standalone messages of its call behind its own. They
are those that come after the first session of the call and before the second
one; `rows_run` states the table as a list.
-/

namespace Sipana

namespace SIPSessionMDB

/-- The session in a message of the queue, if it is one. -/
def session? : JMSMessage → Option SIPSession
  | .objectMessage (.session s) => some s
  | _ => none

/-- The standalone message in a message of the queue, if it is one. -/
def message? : JMSMessage → Option SIPMessage
  | .objectMessage (.message m) => some m
  | _ => none

/-- How many sessions with the Call-ID are among the messages. -/
def sessionCount (messages : List JMSMessage) (c : String) : Nat :=
  (messages.filterMap session?).countP (·.callId = c)

/-- A session with what comes before and after it. -/
structure Arrival where
  before : List JMSMessage
  session : SIPSession
  after : List JMSMessage

/-- The sessions that arrive after `before`. -/
def arrivalsAfter (before : List JMSMessage) : List JMSMessage → List Arrival
  | [] => []
  | a :: after =>
    ((session? a).map fun s => ⟨before, s, after⟩).toList ++
      arrivalsAfter (before ++ [a]) after

def arrivals (messages : List JMSMessage) : List Arrival :=
  arrivalsAfter [] messages

/-- The standalone messages of a call up to its next session. -/
def late (c : String) (after : List JMSMessage) : List SIPMessage :=
  ((after.takeWhile fun a => (session? a).all (·.callId ≠ c)).filterMap
    message?).filter (·.callID = c)

namespace Arrival

/-- Only the first session of a call is given standalone messages. -/
def attached (a : Arrival) : List SIPMessage :=
  if sessionCount a.before a.session.callId = 0 then
    late a.session.callId a.after
  else []

/-- The row of the session. -/
def stored (a : Arrival) : SIPSession :=
  { a.session with
    id := (a.before.filterMap session?).length + 1
    messages := a.session.messages ++ a.attached }

/-- One more message comes. -/
def followedBy (a : Arrival) (message : JMSMessage) : Arrival :=
  { a with after := a.after ++ [message] }

end Arrival

/-! ## Arrivals -/

theorem arrivalsAfter_snoc (before messages : List JMSMessage)
    (a : JMSMessage) :
    arrivalsAfter before (messages ++ [a]) =
      (arrivalsAfter before messages).map (·.followedBy a) ++
        ((session? a).map fun s => ⟨before ++ messages, s, []⟩).toList := by
  induction messages generalizing before with
  | nil => simp [arrivalsAfter]
  | cons b messages ih =>
    have hhead : ((session? b).map fun s =>
          (⟨before, s, messages ++ [a]⟩ : Arrival)).toList =
        ((session? b).map fun s =>
          (⟨before, s, messages⟩ : Arrival)).toList.map (·.followedBy a) := by
      cases session? b <;> rfl
    rw [List.cons_append, arrivalsAfter, arrivalsAfter, ih, hhead,
      List.map_append, List.append_assoc, List.append_assoc]
    rfl

theorem arrivals_snoc (messages : List JMSMessage) (a : JMSMessage) :
    arrivals (messages ++ [a]) =
      (arrivals messages).map (·.followedBy a) ++
        ((session? a).map fun s => ⟨messages, s, []⟩).toList :=
  arrivalsAfter_snoc [] messages a

theorem session?_eq_some {a : JMSMessage} {s : SIPSession} :
    session? a = some s ↔ a = .objectMessage (.session s) := by
  unfold session?
  split <;> simp_all

theorem message?_eq_some {a : JMSMessage} {m : SIPMessage} :
    message? a = some m ↔ a = .objectMessage (.message m) := by
  unfold message?
  split <;> simp_all

/-- The arrivals of a sequence are the places it can be cut at a session. -/
theorem mem_arrivals_iff {messages : List JMSMessage} {x : Arrival} :
    x ∈ arrivals messages ↔
      messages = x.before ++ .objectMessage (.session x.session) :: x.after := by
  have hgeneral : ∀ before, x ∈ arrivalsAfter before messages ↔
      ∃ pre, x.before = before ++ pre ∧
        messages = pre ++ .objectMessage (.session x.session) :: x.after := by
    induction messages with
    | nil => simp [arrivalsAfter]
    | cons a messages ih =>
      intro before
      rw [arrivalsAfter, List.mem_append, ih, Option.mem_toList,
        Option.map_eq_some_iff]
      constructor
      · intro h
        rcases h with ⟨s, hs, rfl⟩ | ⟨pre, hpre, rfl⟩
        · exact ⟨[], by simp, by rw [session?_eq_some.mp hs]; rfl⟩
        · exact ⟨a :: pre, by simp [hpre], rfl⟩
      · intro h
        obtain ⟨pre, hpre, hcut⟩ := h
        cases pre with
        | nil =>
          obtain ⟨rfl, rfl⟩ := List.cons.inj hcut
          obtain ⟨before', s, after⟩ := x
          obtain rfl : before' = before := by simpa using hpre
          exact Or.inl ⟨s, rfl, rfl⟩
        | cons b pre =>
          obtain ⟨rfl, rfl⟩ := List.cons.inj hcut
          exact Or.inr ⟨pre, by simp [hpre], rfl⟩
  rw [arrivals, hgeneral]
  simp

theorem map_session_arrivals (messages : List JMSMessage) :
    (arrivals messages).map Arrival.session =
      messages.filterMap session? := by
  induction messages using List.reverseRecOn with
  | nil => rfl
  | append_singleton messages a ih =>
    rw [arrivals_snoc, List.map_append, List.map_map, List.filterMap_append,
      ← ih]
    cases hs : session? a <;> simp [hs, Arrival.followedBy, Function.comp_def]

/-- The sessions of a call are those before an arrival, itself and those after
it. -/
theorem sessionCount_of_mem {messages : List JMSMessage} {x : Arrival}
    (h : x ∈ arrivals messages) :
    sessionCount messages x.session.callId =
      sessionCount x.before x.session.callId + 1 +
        sessionCount x.after x.session.callId := by
  rw [mem_arrivals_iff] at h
  rw [h]
  simp [sessionCount, session?]
  omega

/-! ## Late messages -/

theorem sessionCount_eq_zero_iff {messages : List JMSMessage} {c : String} :
    sessionCount messages c = 0 ↔
      ∀ a ∈ messages, (session? a).all (·.callId ≠ c) = true := by
  simp only [sessionCount, List.countP_eq_zero, List.mem_filterMap,
    decide_eq_true_eq, forall_exists_index, and_imp]
  constructor
  · intro h a ha
    cases hs : session? a with
    | none => rfl
    | some s => simpa using h s a ha hs
  · intro h s a ha hs
    have hall := h a ha
    rw [hs] at hall
    simpa using hall

theorem late_snoc (c : String) (after : List JMSMessage) (a : JMSMessage) :
    late c (after ++ [a]) = late c after ++
      if sessionCount after c = 0 then
        ((message? a).filter (·.callID = c)).toList
      else [] := by
  unfold late
  rw [List.takeWhile_append]
  by_cases hcount : sessionCount after c = 0
  · have hself := List.takeWhile_eq_self_iff.mpr
      (sessionCount_eq_zero_iff.mp hcount)
    rw [if_pos hcount, hself, if_pos rfl, List.filterMap_append,
      List.filter_append]
    congr 1
    -- a session is no standalone message, whether or not it is of the call
    cases hm : message? a with
    | none =>
      have hnone : ([a].takeWhile fun a =>
          (session? a).all (·.callId ≠ c)).filterMap message? = [] := by
        rw [List.filterMap_eq_nil_iff]
        intro b hb
        rw [List.mem_singleton.mp (List.takeWhile_subset _ hb), hm]
      rw [hnone]
      rfl
    | some m =>
      obtain rfl := message?_eq_some.mp hm
      by_cases hc : m.callID = c <;>
        simp [session?, message?, List.takeWhile, Option.filter_some, hc]
  · have hcut : (after.takeWhile fun a =>
        (session? a).all (·.callId ≠ c)).length ≠ after.length := by
      intro hlength
      have hself := (List.takeWhile_sublist _).eq_of_length hlength
      exact hcount (sessionCount_eq_zero_iff.mpr
        (List.takeWhile_eq_self_iff.mp hself))
    rw [if_neg hcut, if_neg hcount, List.append_nil]

@[simp] theorem followedBy_session (x : Arrival) (a : JMSMessage) :
    (x.followedBy a).session = x.session := rfl

theorem stored_followedBy_of_none (x : Arrival) {a : JMSMessage}
    (h : message? a = none) : (x.followedBy a).stored = x.stored := by
  have hlate := late_snoc x.session.callId x.after a
  unfold Arrival.stored Arrival.attached Arrival.followedBy
  rw [hlate, h]
  simp

/-- One more standalone message reaches the row of the only session of its
call. -/
theorem stored_followedBy_message (x : Arrival) (m : SIPMessage) :
    (x.followedBy (.objectMessage (.message m))).stored =
      if x.session.callId = m.callID ∧
          sessionCount x.before x.session.callId = 0 ∧
          sessionCount x.after x.session.callId = 0 then
        x.stored.addMessage m
      else x.stored := by
  have hlate := late_snoc x.session.callId x.after (.objectMessage (.message m))
  have hm : message? (.objectMessage (.message m)) = some m := rfl
  unfold Arrival.stored Arrival.attached Arrival.followedBy
  simp only [hlate, hm]
  by_cases hbefore : sessionCount x.before x.session.callId = 0
  · by_cases hafter : sessionCount x.after x.session.callId = 0
    · by_cases hc : m.callID = x.session.callId
      · simp [hbefore, hafter, hc, Option.filter_some, SIPSession.addMessage]
      · simp [hbefore, hafter, hc, Ne.symm hc, Option.filter_some]
    · simp [hbefore, hafter]
  · simp [hbefore]

/-! ## The table -/

variable {messages : List JMSMessage}

/-- A standalone message changes the row of its call if there is one such row
and no more. -/
theorem rows_onMessage_message (σ : SIPSessionManager) (m : SIPMessage) :
    (onMessage σ (.objectMessage (.message m))).rows =
      if σ.rows.countP (·.callId = m.callID) = 1 then
        σ.rows.map fun s => if s.callId = m.callID then s.addMessage m else s
      else σ.rows := by
  rw [onMessage_message, ← EntityStore.length_select]
  split
  · rename_i k hrows
    have hselect : σ.select (·.callId = m.callID) = [k] := hrows
    rw [hselect, if_pos (by rfl), EntityStore.update_of_select hselect]
    simp
  · rename_i hrows
    rw [if_neg]
    intro hone
    obtain ⟨k, hk⟩ := List.length_eq_one_iff.mp hone
    exact hrows k hk

theorem countP_stored (messages : List JMSMessage) (c : String) :
    ((arrivals messages).map Arrival.stored).countP (·.callId = c) =
      sessionCount messages c := by
  rw [sessionCount, ← map_session_arrivals, List.countP_map, List.countP_map]
  rfl

/-- The store has one row for each session that arrived, in that order: with the
standalone messages of the call if it is the first one of the call. -/
theorem rows_run (h : ∀ a ∈ messages, Unsaved a) :
    (run messages).rows = (arrivals messages).map Arrival.stored := by
  induction messages using List.reverseRecOn with
  | nil => rfl
  | append_singleton messages a ih =>
    have hrows := ih fun b hb => h b (by simp [hb])
    have hstep : run (messages ++ [a]) = onMessage (run messages) a :=
      machine.run_snoc messages a
    have hunsaved : Unsaved a := h a (by simp)
    rw [hstep, arrivals_snoc, List.map_append, List.map_map]
    have hother : message? a = none → (arrivals messages).map
        (Arrival.stored ∘ (·.followedBy a)) = (run messages).rows := by
      intro hm
      rw [hrows]
      refine List.map_congr_left fun x _ => ?_
      exact stored_followedBy_of_none x hm
    cases a with
    | textMessage text =>
      rw [hother rfl]
      exact (List.append_nil _).symm
    | other =>
      rw [hother rfl]
      exact (List.append_nil _).symm
    | objectMessage object =>
      cases object with
      | other =>
        rw [hother rfl]
        exact (List.append_nil _).symm
      | session s =>
        have hlength : (run messages).rows.length =
            (messages.filterMap session?).length := by
          rw [hrows, List.length_map, ← map_session_arrivals, List.length_map]
        have heff := onMessage_effect (run messages) hunsaved
        generalize onMessage (run messages) _ = τ at heff ⊢
        cases heff with
        | ignored hne => exact absurd rfl (hne s)
        | saved =>
          show (run messages).rows ++ [_] = _
          rw [hother rfl, hlength]
          simp [session?, SIPSessionManager.entity, Arrival.stored,
            Arrival.attached, late]
      | message m =>
        rw [rows_onMessage_message, hrows, countP_stored, List.map_map]
        have hrow : ∀ x ∈ arrivals messages,
            (x.followedBy (.objectMessage (.message m))).stored =
              if sessionCount messages m.callID = 1 then
                if x.stored.callId = m.callID then x.stored.addMessage m
                else x.stored
              else x.stored := by
          intro x hx
          have hcount := sessionCount_of_mem hx
          have hkey : x.stored.callId = x.session.callId := rfl
          rw [stored_followedBy_message, hkey]
          by_cases hc : x.session.callId = m.callID
          · rw [hc] at hcount ⊢
            have hone : sessionCount messages m.callID = 1 ↔
                sessionCount x.before m.callID = 0 ∧
                  sessionCount x.after m.callID = 0 := by omega
            simp [hone]
          · simp [hc]
        have hnone : ((session? (.objectMessage (.message m))).map fun s =>
            (⟨messages, s, []⟩ : Arrival)).toList = [] := rfl
        rw [hnone, List.map_nil, List.append_nil]
        by_cases hone : sessionCount messages m.callID = 1
        · rw [if_pos hone]
          refine List.map_congr_left fun x hx => ?_
          simp [hrow x hx, hone]
        · rw [if_neg hone]
          refine List.map_congr_left fun x hx => ?_
          simp [hrow x hx, hone]

/-- A call that is rejected, answers late and is then accepted. -/
theorem rejected_and_accepted :
    let session (t : Int) : JMSMessage :=
      .objectMessage (.session (SIPSession.ofRequest
        { callID := "a", time := t, method := "INVITE" }))
    let late (t : Int) : JMSMessage :=
      .objectMessage (.message (.response
        { callID := "a", time := t, statusCode := 200,
          relatedRequestMethod := "BYE" }))
    (run [session 1, late 3, session 4, late 9]).rows =
      (arrivals [session 1, late 3, session 4, late 9]).map Arrival.stored :=
  rows_run (by decide)

/-! ## What one message adds -/

/-- The messages that come with a message of the queue. -/
def contents : JMSMessage → List SIPMessage
  | .objectMessage (.session s) => s.messages
  | .objectMessage (.message m) => [m]
  | _ => []

/-- The Call-ID a message of the queue is about. -/
def ofCall (c : String) : JMSMessage → Bool
  | .objectMessage (.session s) => s.callId = c
  | .objectMessage (.message m) => m.callID = c
  | _ => false

/-- The messages in the rows of the table. -/
def storedMessages (σ : SIPSessionManager) : List SIPMessage :=
  σ.rows.flatMap SIPSession.messages

/-- The messages in the rows with a Call-ID. -/
def storedOf (σ : SIPSessionManager) (c : String) : List SIPMessage :=
  (σ.rows.filter (·.callId = c)).flatMap SIPSession.messages

/-- A message adds a row, extends the one row of its call, or changes
nothing. -/
theorem rows_onMessage_cases (σ : SIPSessionManager) {a : JMSMessage}
    (h : Unsaved a) :
    (∃ s, a = .objectMessage (.session s) ∧ (onMessage σ a).rows =
      σ.rows ++ [SIPSessionManager.entity s σ.rows.length]) ∨
    (∃ m l₁ x l₂, a = .objectMessage (.message m) ∧
      σ.rows = l₁ ++ x :: l₂ ∧ x.callId = m.callID ∧
      (∀ y ∈ l₁ ++ l₂, y.callId ≠ m.callID) ∧
      (onMessage σ a).rows = l₁ ++ x.addMessage m :: l₂) ∨
    (onMessage σ a).rows = σ.rows := by
  have heff := onMessage_effect σ h
  generalize hτ : onMessage σ a = τ at heff ⊢
  cases heff with
  | saved => exact Or.inl ⟨_, rfl, rfl⟩
  | lost => exact Or.inr (Or.inr rfl)
  | ignored => exact Or.inr (Or.inr rfl)
  | @attached m k hk =>
    have hone : σ.rows.countP (·.callId = m.callID) = 1 := by
      rw [← EntityStore.length_select]
      exact congrArg List.length hk
    obtain ⟨l₁, x, l₂, hrows, hx, hl₁, hl₂⟩ :=
      EntityStore.exists_only hone
    have hothers : ∀ y ∈ l₁ ++ l₂, y.callId ≠ m.callID := by
      intro y hy
      rcases List.mem_append.mp hy with hy | hy
      · simpa using hl₁ y hy
      · simpa using hl₂ y hy
    refine Or.inr (Or.inl ⟨m, l₁, x, l₂, rfl, hrows, by simpa using hx,
      hothers, ?_⟩)
    have hsame : ∀ l : List SIPSession, (∀ y ∈ l, y.callId ≠ m.callID) →
        (l.map fun s => if s.callId = m.callID then s.addMessage m else s) =
          l := by
      intro l hl
      conv_rhs => rw [← List.map_id l]
      refine List.map_congr_left fun y hy => ?_
      rw [if_neg (hl y hy)]
      rfl
    rw [← hτ, rows_onMessage_message, if_pos hone, hrows, List.map_append,
      List.map_cons, hsame l₁ fun y hy => hothers y (by simp [hy]),
      hsame l₂ fun y hy => hothers y (by simp [hy]),
      if_pos (by simpa using hx)]

/-- Per call, messages come into the table behind those that are there. -/
theorem storedOf_onMessage (σ : SIPSessionManager) {a : JMSMessage}
    (h : Unsaved a) (c : String) :
    (storedOf (onMessage σ a) c).Sublist
      (storedOf σ c ++ if ofCall c a then contents a else []) := by
  unfold storedOf
  rcases rows_onMessage_cases σ h with ⟨s, rfl, hrows⟩ |
    ⟨m, l₁, x, l₂, rfl, hold, hx, hothers, hrows⟩ | hrows
  · rw [hrows, List.filter_append, List.flatMap_append]
    by_cases hc : s.callId = c <;>
      simp [SIPSessionManager.entity, ofCall, contents, hc]
  · rw [hrows, hold]
    by_cases hc : m.callID = c
    · have hnone : ∀ l : List SIPSession, (∀ y ∈ l, y ∈ l₁ ++ l₂) →
          l.filter (·.callId = c) = [] := by
        intro l hl
        rw [List.filter_eq_nil_iff]
        intro y hy
        simpa [← hc] using hothers y (hl y hy)
      have hl₁ := hnone l₁ fun y hy => by simp [hy]
      have hl₂ := hnone l₂ fun y hy => by simp [hy]
      simp [hl₁, hl₂, SIPSession.addMessage, hx, hc, ofCall, contents]
    · simp [SIPSession.addMessage, hx, hc, ofCall]
  · rw [hrows]
    exact List.sublist_append_left _ _

/-- No message comes into the table more often than it comes in the queue. -/
theorem count_storedMessages_onMessage (σ : SIPSessionManager) {a : JMSMessage}
    (h : Unsaved a) (m : SIPMessage) :
    (storedMessages (onMessage σ a)).count m ≤
      (storedMessages σ).count m + (contents a).count m := by
  unfold storedMessages
  rcases rows_onMessage_cases σ h with ⟨s, rfl, hrows⟩ |
    ⟨m', l₁, x, l₂, rfl, hold, -, -, hrows⟩ | hrows
  · rw [hrows, List.flatMap_append, List.count_append]
    simp [SIPSessionManager.entity, contents]
  · rw [hrows, hold]
    simp only [List.flatMap_append, List.flatMap_cons, SIPSession.addMessage,
      contents, List.count_append]
    omega
  · rw [hrows]
    exact Nat.le_add_right _ _

/-! ## Rows and sessions -/

/-- The row is the session with messages of its call behind its own, all of
them as `P` says. -/
def Extends (P : SIPMessage → Prop) (row s : SIPSession) : Prop :=
  ∃ k late, row = { s with id := k, messages := s.messages ++ late } ∧
    ∀ m ∈ late, m.callID = s.callId ∧ P m

theorem Extends.addMessage {P : SIPMessage → Prop} {row s : SIPSession}
    (h : Extends P row s) {m : SIPMessage} (hm : row.callId = m.callID)
    (hP : P m) : Extends P (row.addMessage m) s := by
  obtain ⟨k, late, rfl, hlate⟩ := h
  refine ⟨k, late ++ [m], ?_, ?_⟩
  · simp [SIPSession.addMessage]
  · intro m' hm'
    rcases List.mem_append.mp hm' with hbefore | hlast
    · exact hlate m' hbefore
    · rw [List.mem_singleton.mp hlast]
      exact ⟨hm.symm, hP⟩

/-- The `k`-th row extends the `k`-th session that arrived. -/
theorem extends_run {P : SIPMessage → Prop} {messages : List JMSMessage}
    (h : ∀ a ∈ messages, Unsaved a)
    (hP : ∀ m, .objectMessage (.message m) ∈ messages → P m) :
    List.Forall₂ (Extends P) (run messages).rows
      (messages.filterMap session?) := by
  induction messages using List.reverseRecOn with
  | nil => exact .nil
  | append_singleton messages a ih =>
    have hrows := ih (fun b hb => h b (by simp [hb]))
      (fun m hm => hP m (by simp [hm]))
    have hstep : run (messages ++ [a]) = onMessage (run messages) a :=
      machine.run_snoc messages a
    have hunsaved : Unsaved a := h a (by simp)
    rw [hstep, List.filterMap_append]
    cases a with
    | textMessage text | other =>
      rw [List.filterMap_cons_none rfl, List.filterMap_nil, List.append_nil]
      exact hrows
    | objectMessage object =>
      cases object with
      | other =>
        rw [List.filterMap_cons_none rfl, List.filterMap_nil, List.append_nil]
        exact hrows
      | session s =>
        have heff := onMessage_effect (run messages) hunsaved
        generalize onMessage (run messages) _ = τ at heff ⊢
        cases heff with
        | ignored hne => exact absurd rfl (hne s)
        | saved =>
          have hnew : Extends P
              (SIPSessionManager.entity s (run messages).rows.length) s :=
            ⟨_, [], by rw [List.append_nil]; rfl, by simp⟩
          exact List.rel_append hrows (.cons hnew .nil)
      | message m =>
        rw [List.filterMap_cons_none rfl, List.filterMap_nil, List.append_nil,
          rows_onMessage_message]
        split
        · rw [List.forall₂_map_left_iff]
          refine hrows.imp fun row s hrow => ?_
          split
          · next hm => exact hrow.addMessage hm (hP m (by simp))
          · exact hrow
        · exact hrows

/-- There are as many rows as sessions that arrived. -/
theorem length_rows_run {messages : List JMSMessage}
    (h : ∀ a ∈ messages, Unsaved a) :
    (run messages).rows.length = (messages.filterMap session?).length :=
  (extends_run h (P := fun _ => True) fun _ _ => trivial).length_eq

end SIPSessionMDB

end Sipana
