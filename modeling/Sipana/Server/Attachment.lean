import Sipana.Server.SIPSessionMDB

/-!
# Attaching standalone messages

A standalone message should end up in the stored session of its call. The bean
looks the session up by Call-ID with a query that expects one row, but nothing
keeps a Call-ID from being stored twice: every call that is rejected first, to
be authenticated, and then accepted leaves two sessions. The query fails on the
second one, and from then on all messages of the call are lost.
-/

namespace Sipana

namespace SIPSessionMDB

variable {σ : SIPSessionManager}

/-- The stored sessions with a Call-ID. -/
def withCallID (σ : SIPSessionManager) (callID : String) : List Nat :=
  σ.select (·.callId = callID)

/-! ## What a message does to the store -/

/-- Everything a JMS message can do to the store, as long as sessions arrive
without an id. -/
inductive Effect (σ : SIPSessionManager) : JMSMessage → SIPSessionManager → Prop
  | saved {session : SIPSession} :
      Effect σ (.objectMessage (.session session))
        (σ.persist (SIPSessionManager.entity session))
  | attached {m : SIPMessage} {k : Nat} : withCallID σ m.callID = [k] →
      Effect σ (.objectMessage (.message m)) (σ.update k (·.addMessage m))
  | lost {m : SIPMessage} : (withCallID σ m.callID).length ≠ 1 →
      Effect σ (.objectMessage (.message m)) σ
  | ignored {a : JMSMessage} : (∀ s, a ≠ .objectMessage (.session s)) →
      (∀ m, a ≠ .objectMessage (.message m)) → Effect σ a σ

/-- The session carries no id yet. -/
def Unsaved : JMSMessage → Prop
  | .objectMessage (.session session) => session.id = 0
  | _ => True

instance (a : JMSMessage) : Decidable (Unsaved a) := by
  unfold Unsaved
  split <;> infer_instance

/-- A standalone message is added when the query finds one row. -/
theorem onMessage_message (σ : SIPSessionManager) (m : SIPMessage) :
    onMessage σ (.objectMessage (.message m)) =
      match withCallID σ m.callID with
      | [k] => σ.update k (·.addMessage m)
      | _ => σ := by
  simp only [onMessage, processObjectMessage, addSIPMessage,
    SIPSessionManager.findByCallID, withCallID]
  cases σ.select (·.callId = m.callID) with
  | nil => rfl
  | cons k rest => cases rest <;> rfl

theorem onMessage_effect (σ : SIPSessionManager) {a : JMSMessage}
    (h : Unsaved a) : Effect σ a (onMessage σ a) := by
  cases a with
  | textMessage text =>
    show Effect σ _ σ
    exact .ignored (by simp) (by simp)
  | other =>
    show Effect σ _ σ
    exact .ignored (by simp) (by simp)
  | objectMessage object =>
    cases object with
    | other =>
      show Effect σ _ σ
      exact .ignored (by simp) (by simp)
    | session session =>
      have hid : ¬ session.id > 0 := by
        rw [show session.id = 0 from h]
        exact Int.lt_irrefl 0
      unfold onMessage processObjectMessage addSIPSession SIPSessionManager.save
      simp only [if_neg hid]
      exact .saved
    | message m =>
      rw [onMessage_message]
      split
      · rename_i k hrows
        exact .attached hrows
      · rename_i hrows
        exact .lost fun hone =>
          let ⟨k, hk⟩ := List.length_eq_one_iff.mp hone
          hrows k hk

/-! ## Rows grow -/

/-- Every row of `σ` is still a row of `τ`, with the same Call-ID and at least
the same messages. -/
def Grows (σ τ : SIPSessionManager) : Prop :=
  ∀ (k : Nat) (s : SIPSession), σ.rows[k]? = some s →
    ∃ t : SIPSession, τ.rows[k]? = some t ∧ t.callId = s.callId ∧
      s.messages <+: t.messages

theorem Grows.refl (σ : SIPSessionManager) : Grows σ σ :=
  fun _ s hs => ⟨s, hs, rfl, List.prefix_refl _⟩

theorem Grows.trans {σ τ υ : SIPSessionManager} (h : Grows σ τ)
    (h' : Grows τ υ) : Grows σ υ := by
  intro k s hs
  obtain ⟨t, ht, hid, hpre⟩ := h k s hs
  obtain ⟨u, hu, hid', hpre'⟩ := h' k t ht
  exact ⟨u, hu, hid'.trans hid, hpre.trans hpre'⟩

theorem grows_onMessage (σ : SIPSessionManager) {a : JMSMessage}
    (h : Unsaved a) : Grows σ (onMessage σ a) := by
  have heff := onMessage_effect σ h
  generalize onMessage σ a = τ at heff ⊢
  cases heff with
  | saved =>
    intro k s hs
    exact ⟨s, EntityStore.getElem?_persist_of_some hs, rfl, List.prefix_refl _⟩
  | @attached m j _ =>
    intro k s hs
    by_cases hk : j = k
    · subst hk
      exact ⟨_, EntityStore.getElem?_update_self hs, rfl,
        List.prefix_append _ _⟩
    · exact ⟨s, (EntityStore.getElem?_update_ne hk).trans hs, rfl,
        List.prefix_refl _⟩
  | lost => exact Grows.refl σ
  | ignored => exact Grows.refl σ

/-- What is selected by Call-ID stays selected. -/
theorem Grows.withCallID {τ : SIPSessionManager} (h : Grows σ τ) {c : String} :
    (withCallID σ c).length ≤ (withCallID τ c).length := by
  apply EntityStore.length_select_le
  intro k hk
  obtain ⟨s, hs, hc⟩ := EntityStore.mem_select.mp hk
  obtain ⟨t, ht, hid, -⟩ := h k s hs
  refine EntityStore.mem_select.mpr ⟨t, ht, ?_⟩
  simpa [hid] using hc

/-- Once a Call-ID is stored twice, its sessions do not change any more. -/
theorem crowded_onMessage {a : JMSMessage} (h : Unsaved a) {c : String}
    (hc : 2 ≤ (withCallID σ c).length) {k : Nat} {s : SIPSession}
    (hs : σ.rows[k]? = some s) (hid : s.callId = c) :
    (onMessage σ a).rows[k]? = some s := by
  have heff := onMessage_effect σ h
  generalize onMessage σ a = τ at heff ⊢
  cases heff with
  | saved => exact EntityStore.getElem?_persist_of_some hs
  | @attached m j hj =>
    by_cases hk : j = k
    · -- the row would be the only one with its Call-ID
      subst hk
      have hmem : j ∈ withCallID σ m.callID := by rw [hj]; simp
      obtain ⟨s', hs', hm⟩ := EntityStore.mem_select.mp hmem
      obtain rfl := Option.some.inj (hs.symm.trans hs')
      rw [← hid, show s.callId = m.callID by simpa using hm, hj] at hc
      exact absurd hc (by simp)
    · exact (EntityStore.getElem?_update_ne hk).trans hs
  | lost => exact hs
  | ignored => exact hs

/-! ## Stored Call-IDs -/

/-- Some stored session has the Call-ID. -/
def Stored (σ : SIPSessionManager) (c : String) : Prop :=
  ∃ (k : Nat) (s : SIPSession), σ.rows[k]? = some s ∧ s.callId = c

theorem Grows.stored {τ : SIPSessionManager} (h : Grows σ τ) {c : String}
    (hc : Stored σ c) : Stored τ c := by
  obtain ⟨k, s, hs, rfl⟩ := hc
  obtain ⟨t, ht, hid, -⟩ := h k s hs
  exact ⟨k, t, ht, hid⟩

theorem stored_iff_mem {c : String} :
    Stored σ c ↔ ∃ k, k ∈ withCallID σ c := by
  simp [Stored, withCallID, EntityStore.mem_select]

/-- Only a session brings a Call-ID into the store. -/
theorem stored_onMessage {a : JMSMessage} (h : Unsaved a) {c : String} :
    Stored (onMessage σ a) c ↔ Stored σ c ∨
      ∃ s, a = .objectMessage (.session s) ∧ s.callId = c := by
  refine ⟨?_, ?_⟩
  · intro hc
    obtain ⟨k, t, ht, rfl⟩ := hc
    have heff := onMessage_effect σ h
    generalize onMessage σ a = τ at heff ht
    cases heff with
    | saved =>
      rcases EntityStore.getElem?_persist ht with hold | ⟨-, rfl⟩
      · exact Or.inl ⟨k, t, hold, rfl⟩
      · exact Or.inr ⟨_, rfl, rfl⟩
    | @attached m j _ =>
      refine Or.inl ?_
      by_cases hk : j = k
      · subst hk
        obtain ⟨s, hs, rfl⟩ := EntityStore.getElem?_update ht
        exact ⟨j, s, hs, rfl⟩
      · exact ⟨k, t, (EntityStore.getElem?_update_ne hk).symm.trans ht, rfl⟩
    | lost => exact Or.inl ⟨k, t, ht, rfl⟩
    | ignored => exact Or.inl ⟨k, t, ht, rfl⟩
  · intro hc
    rcases hc with hold | ⟨s, rfl, rfl⟩
    · exact (grows_onMessage σ h).stored hold
    · have heff := onMessage_effect σ h
      generalize onMessage σ _ = τ at heff ⊢
      cases heff with
      | saved => exact ⟨_, _, EntityStore.getElem?_persist_length, rfl⟩
      | ignored hne => exact absurd rfl (hne s)

/-! ## Sequences of messages -/

variable {messages pre post : List JMSMessage}

theorem grows_exec (h : ∀ a ∈ post, Unsaved a) :
    Grows σ (machine.exec σ post) := by
  induction post generalizing σ with
  | nil => exact Grows.refl σ
  | cons a post ih =>
    obtain ⟨ha, hpost⟩ := List.forall_mem_cons.mp h
    exact (grows_onMessage σ ha).trans (ih hpost)

theorem crowded_exec (h : ∀ a ∈ post, Unsaved a) {c : String}
    (hc : 2 ≤ (withCallID σ c).length) {k : Nat} {s : SIPSession}
    (hs : σ.rows[k]? = some s) (hid : s.callId = c) :
    (machine.exec σ post).rows[k]? = some s := by
  induction post generalizing σ with
  | nil => exact hs
  | cons a post ih =>
    obtain ⟨ha, hpost⟩ := List.forall_mem_cons.mp h
    exact ih hpost
      (Nat.le_trans hc (grows_onMessage σ ha).withCallID)
      (crowded_onMessage ha hc hs hid)

/-- A session with the Call-ID is among the messages. -/
def SavedAmong (messages : List JMSMessage) (c : String) : Prop :=
  ∃ s, .objectMessage (.session s) ∈ messages ∧ s.callId = c

theorem stored_run (h : ∀ a ∈ pre, Unsaved a) (c : String) :
    Stored (run pre) c ↔ SavedAmong pre c := by
  induction pre using List.reverseRecOn with
  | nil => simp [Stored, SavedAmong, run, Machine.run, machine]
  | append_singleton pre a ih =>
    have hstep : run (pre ++ [a]) = onMessage (run pre) a :=
      machine.run_snoc pre a
    rw [hstep, stored_onMessage (h a (by simp)),
      ih fun b hb => h b (by simp [hb])]
    simp only [SavedAmong, List.mem_append, List.mem_singleton, or_and_right,
      exists_or]
    simp only [eq_comm]

/-- The standalone message `m`, processed between `pre` and `post`, is in the
list of exactly one stored session with its Call-ID at the end: behind the
messages that session had when `m` came. -/
def EndsUp (pre : List JMSMessage) (m : SIPMessage) (post : List JMSMessage) :
    Prop :=
  ∃! k : Nat, ∃ s t : SIPSession, (run pre).rows[k]? = some s ∧
    (run (pre ++ .objectMessage (.message m) :: post)).rows[k]? = some t ∧
    t.callId = m.callID ∧ s.messages ++ [m] <+: t.messages

/-- Every standalone message that follows a session with its Call-ID ends up in
one stored session. -/
def AllAttached (messages : List JMSMessage) : Prop :=
  ∀ pre m post, messages = pre ++ .objectMessage (.message m) :: post →
    SavedAmong pre m.callID → EndsUp pre m post

/-- No two stored sessions have the Call-ID of the message. -/
def FindsAtMostOne (σ : SIPSessionManager) : JMSMessage → Prop
  | .objectMessage (.message m) => (withCallID σ m.callID).length ≤ 1
  | _ => True

instance (σ : SIPSessionManager) (a : JMSMessage) :
    Decidable (FindsAtMostOne σ a) := by
  unfold FindsAtMostOne
  split <;> infer_instance

theorem endsUp_of_one {m : SIPMessage}
    (h : ∀ a ∈ pre ++ .objectMessage (.message m) :: post, Unsaved a)
    (hone : (withCallID (run pre) m.callID).length ≤ 1)
    (hsaved : SavedAmong pre m.callID) : EndsUp pre m post := by
  have hpre : ∀ a ∈ pre, Unsaved a := fun a ha => h a (by simp [ha])
  have hpost : ∀ a ∈ post, Unsaved a := fun a ha => h a (by simp [ha])
  obtain ⟨k, hk⟩ := stored_iff_mem.mp ((stored_run hpre _).mpr hsaved)
  have hrows := EntityStore.select_eq_singleton hk hone
  obtain ⟨s, hs, hid⟩ := EntityStore.mem_select.mp hk
  have hrun : run (pre ++ .objectMessage (.message m) :: post) =
      machine.exec ((run pre).update k (·.addMessage m)) post := by
    have hstep : onMessage (run pre) (.objectMessage (.message m)) =
        (run pre).update k (·.addMessage m) := by
      rw [onMessage_message,
        show withCallID (run pre) m.callID = [k] from hrows]
    rw [run, machine.run_append_cons, ← hstep]
    rfl
  have hgrows : Grows (run pre)
      (run (pre ++ .objectMessage (.message m) :: post)) := by
    rw [run, run, machine.run_append]
    exact grows_exec fun a ha => h a (by simp [ha])
  obtain ⟨t, ht, htid, htmsgs⟩ := grows_exec hpost k _
    (EntityStore.getElem?_update_self (f := (·.addMessage m)) hs)
  refine ⟨k, ⟨s, t, hs, hrun ▸ ht, ?_, htmsgs⟩, ?_⟩
  · rw [htid]
    simpa [SIPSession.addMessage] using hid
  · intro j hj
    obtain ⟨s', t', hs', ht', hid', -⟩ := hj
    obtain ⟨u, hu, huid, -⟩ := hgrows j s' hs'
    obtain rfl := Option.some.inj (hu.symm.trans ht')
    have hmem : j ∈ withCallID (run pre) m.callID :=
      EntityStore.mem_select.mpr ⟨s', hs', by simp [← huid, hid']⟩
    rw [withCallID, hrows, List.mem_singleton] at hmem
    exact hmem

theorem not_endsUp_of_two {m : SIPMessage}
    (h : ∀ a ∈ pre ++ .objectMessage (.message m) :: post, Unsaved a)
    (htwo : 2 ≤ (withCallID (run pre) m.callID).length) :
    ¬ EndsUp pre m post := by
  intro hends
  obtain ⟨k, ⟨s, t, hs, ht, hid, hmsgs⟩, -⟩ := hends
  have hsuffix : ∀ a ∈ .objectMessage (.message m) :: post, Unsaved a :=
    fun a ha => h a (List.mem_append_right _ ha)
  rw [run, machine.run_append] at ht
  obtain ⟨u, hu, huid, -⟩ := grows_exec hsuffix k s hs
  obtain rfl := Option.some.inj (hu.symm.trans ht)
  -- the row is frozen, so nothing was added to it
  have hsame := crowded_exec hsuffix htwo hs (huid.symm.trans hid)
  obtain rfl := Option.some.inj (hu.symm.trans hsame)
  have hlength := hmsgs.length_le
  rw [List.length_append, List.length_singleton] at hlength
  omega

/-- All standalone messages are attached exactly when none arrives while two
sessions with its Call-ID are stored. -/
theorem all_attached_iff (messages : List JMSMessage)
    (h : ∀ a ∈ messages, Unsaved a) :
    AllAttached messages ↔ machine.Along FindsAtMostOne messages := by
  refine ⟨?_, ?_⟩
  · intro hall pre a post heq
    subst heq
    unfold FindsAtMostOne
    split
    · rename_i m
      by_contra hmany
      have hpre : ∀ a ∈ pre, Unsaved a := fun a ha => h a (by simp [ha])
      have htwo : 2 ≤ (withCallID (run pre) m.callID).length :=
        Nat.lt_of_not_le hmany
      obtain ⟨k, hk⟩ := List.exists_mem_of_length_pos
        (Nat.lt_of_lt_of_le Nat.zero_lt_two htwo)
      exact not_endsUp_of_two h htwo (hall pre m post rfl
        ((stored_run hpre _).mp (stored_iff_mem.mpr ⟨k, hk⟩)))
    · trivial
  · intro hone pre m post heq hsaved
    subst heq
    exact endsUp_of_one h (hone pre _ post rfl) hsaved

/-- A retransmitted response of a call that is stored once. -/
theorem all_attached_single_call :
    EndsUp [.objectMessage (.session (SIPSession.ofRequest
        { callID := "a", time := 1, method := "INVITE" }))]
      (.response
        { callID := "a", time := 2, statusCode := 486,
          relatedRequestMethod := "INVITE" }) [] :=
  (all_attached_iff
    [.objectMessage (.session (SIPSession.ofRequest
      { callID := "a", time := 1, method := "INVITE" })),
      .objectMessage (.message (.response
        { callID := "a", time := 2, statusCode := 486,
          relatedRequestMethod := "INVITE" }))]
    (by decide)).mpr (by decide) _ _ _ rfl
      ⟨_, List.mem_singleton_self _, rfl⟩

/-- A call that is authenticated leaves two sessions, and the response that
comes late belongs to neither. -/
theorem authenticated_call_loses_messages :
    ¬ ∀ messages, (∀ a ∈ messages, Unsaved a) → AllAttached messages := by
  intro h
  let invite (t : Int) : JMSMessage :=
    .objectMessage (.session (SIPSession.ofRequest
      { callID := "a", time := t, method := "INVITE" }))
  let late : SIPMessage :=
    .response
      { callID := "a", time := 9, statusCode := 200,
        relatedRequestMethod := "BYE" }
  have hunsaved : ∀ a ∈ [invite 1, invite 4, .objectMessage (.message late)],
      Unsaved a := by decide
  have hlost : ¬ EndsUp [invite 1, invite 4] late [] :=
    not_endsUp_of_two hunsaved (by decide)
  exact hlost (h _ hunsaved _ _ _ rfl ⟨_, List.mem_cons_self, rfl⟩)

end SIPSessionMDB

end Sipana
