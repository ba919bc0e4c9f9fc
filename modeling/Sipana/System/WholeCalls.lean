import Sipana.System.Ledger

/-!
# Calls that are stored whole

`stored_as_captured` bounds what is stored from above. This module says what is
stored at least, for an agent in immediate mode. A run is undisturbed if the
sender drops nothing and every message finds the handler idle. When such a run
has come to rest:

* what is stored for a call is what its tracker and the bean make of the
  messages of this call alone, whoever has moved in between
  (`stored_as_tracked`);
* it is everything that was captured of the call (`stored_whole_iff`) exactly
  when no session of it is left open and none of its messages is one of three:
  an ACK, BYE or CANCEL without a live session, a request that replaces the live
  session, or a response without a live session for which the bean does not find
  exactly one row.
-/

namespace Sipana

/-! ## What the bean makes of one call -/

namespace Delivery

def isSession : Delivery → Bool
  | .session _ => true
  | .message _ => false

/-- What is stored of the deliveries of a call, after `n` sessions of it. A late
message needs exactly one. -/
def stored (n : Nat) : List Delivery → List SIPMessage
  | [] => []
  | .session s :: ds => s.messages ++ stored (n + 1) ds
  | .message m :: ds => (if n = 1 then [m] else []) ++ stored n ds

theorem stored_snoc_session (n : Nat) (ds : List Delivery) (s : SIPSession) :
    stored n (ds ++ [.session s]) = stored n ds ++ s.messages := by
  induction ds generalizing n with
  | nil => exact List.append_nil _
  | cons d ds ih => cases d <;> simp [stored, ih]

theorem stored_snoc_message (n : Nat) (ds : List Delivery) (m : SIPMessage) :
    stored n (ds ++ [.message m]) =
      stored n ds ++ if n + ds.countP isSession = 1 then [m] else [] := by
  induction ds generalizing n with
  | nil => simp [stored]
  | cons d ds ih =>
    cases d with
    | session s =>
      have hcount : n + (Delivery.session s :: ds).countP isSession =
          n + 1 + ds.countP isSession := by
        rw [List.countP_cons_of_pos rfl]
        omega
      rw [hcount, List.cons_append, stored, stored, ih, List.append_assoc]
    | message m' =>
      rw [List.countP_cons_of_neg Bool.false_ne_true, List.cons_append, stored,
        stored, ih, List.append_assoc]

end Delivery

namespace SIPSessionMDB

open SIPHandler (delivery)

theorem storedOf_session (σ : SIPSessionManager) {s : SIPSession}
    (h : s.id = 0) (c : String) :
    let τ := onMessage σ (.objectMessage (.session s))
    storedOf τ c = storedOf σ c ++ (if s.callId = c then s.messages else []) ∧
    τ.rows.countP (·.callId = c) =
      σ.rows.countP (·.callId = c) + if s.callId = c then 1 else 0 := by
  have hrows : (onMessage σ (.objectMessage (.session s))).rows =
      σ.rows ++ [SIPSessionManager.entity s σ.rows.length] := by
    simp [onMessage, processObjectMessage, addSIPSession,
      SIPSessionManager.save, EntityStore.persist, h]
  simp only [storedOf, hrows, List.filter_append, List.flatMap_append,
    List.countP_append]
  by_cases hc : s.callId = c <;> simp [SIPSessionManager.entity, hc]

/-- A late message changes no Call-ID. -/
theorem filter_addMessage (rows : List SIPSession) (m : SIPMessage)
    (c : String) :
    (rows.map fun s => if s.callId = m.callID then s.addMessage m
        else s).filter (·.callId = c) =
      (rows.filter (·.callId = c)).map fun s =>
        if s.callId = m.callID then s.addMessage m else s := by
  rw [List.filter_map]
  congr 2
  funext s
  simp only [Function.comp_apply]
  split <;> rfl

theorem storedOf_message (σ : SIPSessionManager) (m : SIPMessage)
    (c : String) :
    let τ := onMessage σ (.objectMessage (.message m))
    storedOf τ c = storedOf σ c ++
      (if m.callID = c ∧ σ.rows.countP (·.callId = c) = 1 then [m] else []) ∧
    τ.rows.countP (·.callId = c) = σ.rows.countP (·.callId = c) := by
  simp only [storedOf, rows_onMessage_message, List.countP_eq_length_filter]
  split
  · next hone =>
    rw [filter_addMessage]
    refine ⟨?_, List.length_map _⟩
    have hcall : ∀ x ∈ σ.rows.filter (·.callId = c), x.callId = c :=
      fun x hx => by simpa using (List.mem_filter.mp hx).2
    by_cases hc : m.callID = c
    · rw [hc] at hone
      obtain ⟨x, hx⟩ := List.length_eq_one_iff.mp hone
      have hown : x.callId = m.callID := by
        rw [hc]
        exact hcall x (by simp [hx])
      simp [hx, hc, hown, SIPSession.addMessage]
    · -- the row that grows is of another call
      have hsame : ((σ.rows.filter (·.callId = c)).map fun s =>
          if s.callId = m.callID then s.addMessage m else s) =
            σ.rows.filter (·.callId = c) := by
        conv_rhs => rw [← List.map_id (σ.rows.filter _)]
        refine List.map_congr_left fun x hx => if_neg ?_
        rw [hcall x hx]
        exact Ne.symm hc
      rw [hsame, if_neg fun h => hc h.1, List.append_nil]
  · next hmany =>
    refine ⟨?_, rfl⟩
    rw [if_neg, List.append_nil]
    rintro ⟨rfl, hone⟩
    exact hmany hone

/-- The bean keeps the calls apart. -/
theorem storedOf_run_eq {xs : List Sent} (h : ∀ x ∈ xs, Unsaved x.jms)
    (c : String) :
    storedOf (run (xs.map Sent.jms)) c =
        Delivery.stored 0 (xs.filterMap (delivery c)) ∧
      (run (xs.map Sent.jms)).rows.countP (·.callId = c) =
        (xs.filterMap (delivery c)).countP Delivery.isSession := by
  induction xs using List.reverseRecOn with
  | nil => exact ⟨rfl, rfl⟩
  | append_singleton xs x ih =>
    obtain ⟨hstored, hcount⟩ := ih fun y hy => h y (by simp [hy])
    have hstep : run ((xs ++ [x]).map Sent.jms) =
        onMessage (run (xs.map Sent.jms)) x.jms := by
      rw [List.map_append]
      exact machine.run_snoc _ _
    rw [hstep, List.filterMap_append]
    cases x with
    | session r s =>
      obtain ⟨hnew, hrows⟩ := storedOf_session (run (xs.map Sent.jms))
        (h (.session r s) (by simp)) c
      simp only [Sent.jms]
      rw [hnew, hrows, hstored, hcount]
      by_cases hc : s.callId = c
      · simp [delivery, hc, Delivery.stored_snoc_session, Delivery.isSession]
      · simp [delivery, hc]
    | message m =>
      obtain ⟨hnew, hrows⟩ := storedOf_message (run (xs.map Sent.jms)) m c
      simp only [Sent.jms]
      rw [hnew, hrows, hstored, hcount]
      by_cases hc : m.callID = c
      · simp [delivery, hc, Delivery.stored_snoc_message, Delivery.isSession]
      · simp [delivery, hc]

end SIPSessionMDB

/-! ## One call -/

namespace CallTrack

/-- What ends up in the store of what was delivered. -/
def stored (t : CallTrack) : List SIPMessage := Delivery.stored 0 t.delivered

/-- The call loses messages: a request that no session takes up, a request that
replaces the live session, or a response without a live session for which the
bean does not find one row. -/
def drops (t : CallTrack) : SIPMessage → Bool
  | .request q =>
    match t.live with
    | none => q.kind = .ack || q.kind = .disconnect
    | some _ => q.kind = .other
  | .response _ =>
    t.live.isNone && t.delivered.countP Delivery.isSession ≠ 1

/-- What is stored or will be, unless the live session is replaced. -/
def kept (t : CallTrack) : List SIPMessage := t.stored ++ t.held

/-- A session holds at least the request that has opened it. -/
def Filled (t : CallTrack) : Prop := t.held = [] → t.live = none

theorem filled_step {t : CallTrack} (h : t.Filled) (m : SIPMessage) :
    (t.step m).Filled := by
  obtain ⟨live, delivered⟩ := t
  cases m with
  | request q =>
    cases live with
    | none =>
      unfold step request
      simp only
      split
      · exact nofun
      · exact h
    | some s =>
      unfold step request
      simp only
      split
      · exact nofun
      · simp [Filled, held]
  | response p =>
    cases live with
    | none => exact fun _ => rfl
    | some s =>
      unfold step response
      simp only
      split
      · exact fun _ => rfl
      · simp [Filled, held]

theorem kept_step {t : CallTrack} (m : SIPMessage) (h : t.drops m = false) :
    (t.step m).kept = t.kept ++ [m] := by
  obtain ⟨live, delivered⟩ := t
  cases m with
  | request q =>
    cases live with
    | none =>
      have hkind : q.kind = .other ∨ q.kind = .invite := by
        cases hq : q.kind <;> simp_all [drops]
      simp [step, request, hkind, kept, stored, held, SIPSession.ofRequest]
    | some s =>
      have hkind : q.kind ≠ .other := by simpa [drops] using h
      simp [step, request, hkind, kept, stored, held]
  | response p =>
    cases live with
    | none =>
      have hone : delivered.countP Delivery.isSession = 1 := by
        simpa [drops] using h
      simp [step, response, kept, stored, held, Delivery.stored_snoc_message,
        hone]
    | some s =>
      unfold step response
      simp only
      split <;> simp [kept, stored, held, Delivery.stored_snoc_session]

theorem kept_step_drops {t : CallTrack} (hfilled : t.Filled) {m : SIPMessage}
    (h : t.drops m = true) :
    (t.step m).kept.Sublist (t.kept ++ [m]) ∧
      (t.step m).kept.length ≤ t.kept.length := by
  obtain ⟨live, delivered⟩ := t
  cases m with
  | request q =>
    cases live with
    | none =>
      have hkind : ¬ (q.kind = .other ∨ q.kind = .invite) := by
        cases hq : q.kind <;> simp_all [drops]
      simp [step, request, hkind, kept]
    | some s =>
      have hkind : q.kind = .other := by simpa [drops] using h
      have hfull : 0 < s.messages.length :=
        List.length_pos_of_ne_nil fun hnil => by simpa using hfilled hnil
      simp [step, request, hkind, kept, stored, held, SIPSession.ofRequest]
      omega
  | response p =>
    cases live with
    | none =>
      have hmany : delivered.countP Delivery.isSession ≠ 1 := by
        simpa [drops] using h
      simp [step, response, kept, stored, held, Delivery.stored_snoc_message,
        hmany]
    | some s => simp [drops] at h

theorem filled_run (ms : List SIPMessage) : (machine.run ms).Filled :=
  machine.run_invariant (I := Filled) (fun _ => rfl)
    (fun _ m h => filled_step h m) ms

/-- A call keeps its messages in order, and all of them exactly when it drops
none. -/
theorem kept_run (ms : List SIPMessage) :
    (machine.run ms).kept.Sublist ms ∧
    ((machine.run ms).kept = ms ↔
      machine.Along (fun t m => t.drops m = false) ms) := by
  induction ms using List.reverseRecOn with
  | nil =>
    exact ⟨List.Sublist.refl _, fun _ _ _ _ h => by simp at h, fun _ => rfl⟩
  | append_singleton ms m ih =>
    obtain ⟨hsome, hall⟩ := ih
    have hstep : machine.run (ms ++ [m]) = (machine.run ms).step m :=
      machine.run_snoc ms m
    rw [hstep, machine.along_snoc]
    cases hdrops : (machine.run ms).drops m with
    | false =>
      rw [kept_step m hdrops, List.append_left_inj, hall]
      exact ⟨hsome.append (List.Sublist.refl _), by simp⟩
    | true =>
      obtain ⟨hless, hlength⟩ := kept_step_drops (filled_run ms) hdrops
      refine ⟨hless.trans (hsome.append (List.Sublist.refl _)), ?_⟩
      constructor
      · intro hwhole
        have hsame := congrArg List.length hwhole
        have hbefore := hsome.length_le
        rw [List.length_append] at hsame
        exact absurd hsame (by simp only [List.length_singleton]; omega)
      · rintro ⟨-, hfalse⟩
        simp at hfalse

theorem stored_eq_iff (ms : List SIPMessage) :
    (machine.run ms).stored = ms ↔ (machine.run ms).live = none ∧
      machine.Along (fun t m => t.drops m = false) ms := by
  obtain ⟨hsome, hall⟩ := kept_run ms
  rw [← hall]
  constructor
  · intro hstored
    -- nothing is left for the live session to hold
    have hlength := hsome.length_le
    rw [kept, hstored, List.length_append] at hlength
    have hnone : (machine.run ms).held = [] :=
      List.length_eq_zero_iff.mp (by omega)
    refine ⟨filled_run ms hnone, ?_⟩
    rw [kept, hstored, hnone, List.append_nil]
  · rintro ⟨hlive, hkept⟩
    rw [kept, held, hlive] at hkept
    exact (List.append_nil _).symm.trans hkept

end CallTrack

/-! ## The whole system -/

namespace ImmediateDeployment

open SIPSessionMDB

/-- The message comes by while the handler is still inside `send`. -/
def misses (σ : ImmediateDeployment) : ImmediateDeploymentStep → Bool
  | .capture _ => σ.sender.caller ≠ .idle
  | .caller _ | .system _ | .deliver => false

/-- The sender drops nothing and every message finds the handler idle. -/
def Undisturbed (bufferSize : Int) (steps : List ImmediateDeploymentStep) :
    Prop :=
  (machine bufferSize).Along
    (fun σ a => σ.loses (fun _ => true) a = false ∧ σ.misses a = false) steps

instance (bufferSize : Int) (steps : List ImmediateDeploymentStep) :
    Decidable (Undisturbed bufferSize steps) :=
  inferInstanceAs (Decidable (Machine.Along _ _ _))

/-- Nothing is on its way. -/
def AtRest (σ : ImmediateDeployment) : Prop :=
  σ.sender.caller = .idle ∧ σ.queue = []

instance (σ : ImmediateDeployment) : Decidable σ.AtRest :=
  inferInstanceAs (Decidable (_ ∧ _))

theorem run_snoc (bufferSize : Int) (steps : List ImmediateDeploymentStep)
    (a : ImmediateDeploymentStep) :
    run bufferSize (steps ++ [a]) = (run bufferSize steps).step a :=
  (machine bufferSize).run_snoc steps a

/-- The handler has processed every message. -/
theorem handler_of_undisturbed {bufferSize : Int}
    {steps : List ImmediateDeploymentStep} (h : Undisturbed bufferSize steps) :
    (run bufferSize steps).handler =
      SIPHandler.run ((captured steps).map fun m => ⟨m, .returns⟩) := by
  induction steps using List.reverseRecOn with
  | nil => rfl
  | append_singleton steps a ih =>
    obtain ⟨hbefore, -, hhears⟩ := (Machine.along_snoc _ _ _ _).mp h
    rw [run_snoc, captured, List.filterMap_append]
    cases a with
    | capture m =>
      have hidle : (run bufferSize steps).sender.caller = .idle :=
        of_not_not (of_decide_eq_false hhears)
      show ((run bufferSize steps).capture m).handler =
        SIPHandler.run ((captured steps ++ [m]).map fun m => ⟨m, .returns⟩)
      rw [capture, if_pos hidle, ih hbefore, List.map_append]
      exact (SIPHandler.run_snoc _ _).symm
    | caller result =>
      rw [List.filterMap_cons_none rfl, List.filterMap_nil, List.append_nil]
      exact ih hbefore
    | system a =>
      rw [List.filterMap_cons_none rfl, List.filterMap_nil, List.append_nil]
      exact ih hbefore
    | deliver =>
      have hhandler : (run bufferSize steps).deliver.handler =
          (run bufferSize steps).handler := by
        unfold deliver
        split <;> rfl
      rw [List.filterMap_cons_none rfl, List.filterMap_nil, List.append_nil]
      exact hhandler.trans (ih hbefore)

/-- The bean was given all that the handler makes of the messages. -/
theorem server_of_undisturbed {bufferSize : Int}
    {steps : List ImmediateDeploymentStep} (h : Undisturbed bufferSize steps)
    (hrest : (run bufferSize steps).AtRest) :
    (run bufferSize steps).server = SIPSessionMDB.run
      ((SIPHandler.run ((captured steps).map fun m => ⟨m, .returns⟩)).sent.map
        Sent.jms) := by
  have hnone : (machine bufferSize).Along
      (fun σ a => σ.loses (fun _ => true) a = false) steps :=
    fun pre a post heq => (h pre a post heq).1
  obtain ⟨taken, hserver, hqueue⟩ := (invariant_run bufferSize steps).queue
  have hwhole := (taken_iff_none_lost bufferSize steps hqueue).mpr hnone
  obtain ⟨hidle, hempty⟩ := hrest
  have hhand : (run bufferSize steps).inHand = [] := by
    rw [inHand, ImmediateSender.inFlight, hidle]
    rfl
  rw [hempty, hhand, List.append_nil, List.append_nil] at hwhole
  rw [hserver, hwhole, handler_of_undisturbed h]

/-- Whatever has happened in between: what an undisturbed run stores of a call
is what the tracker of the call makes of its messages. -/
theorem stored_as_tracked (bufferSize : Int)
    (steps : List ImmediateDeploymentStep) (h : Undisturbed bufferSize steps)
    (hrest : (run bufferSize steps).AtRest) (c : String) :
    storedOf (run bufferSize steps).server c =
      (CallTrack.machine.run
        ((captured steps).filter (·.callID = c))).stored := by
  rw [server_of_undisturbed h hrest]
  generalize hcalls : (captured steps).map (fun m =>
    (⟨m, .returns⟩ : SIPHandler.Call)) = calls
  have hmessages : SIPHandler.messagesOf calls c =
      (captured steps).filter (·.callID = c) := by
    rw [SIPHandler.messagesOf, ← hcalls, List.map_map]
    exact congrArg _ (List.map_id _)
  have hview : SIPHandler.track c (SIPHandler.run calls) =
      CallTrack.machine.run (SIPHandler.messagesOf calls c) :=
    SIPHandler.trackers.view_run c calls
  have hunsaved : ∀ x ∈ (SIPHandler.run calls).sent, Unsaved x.jms :=
    fun _ hx => SIPHandler.unsaved_of_sent hx
  have hbean := storedOf_run_eq hunsaved c
  rw [← hmessages, ← hview]
  exact hbean.1

/-- The sender is started, and a call is set up and hung up. -/
def answeredCall : List ImmediateDeploymentStep :=
  .system .start :: List.replicate 10 (.system (.call 0 .returns)) ++
    [.capture (.request { callID := "a", time := 1, method := "INVITE" }),
      .capture (.response
        { callID := "a", time := 2, statusCode := 200,
          relatedRequestMethod := "INVITE" }),
      .capture (.request { callID := "a", time := 3, method := "ACK" }),
      .capture (.request { callID := "a", time := 4, method := "BYE" }),
      .capture (.response
        { callID := "a", time := 5, statusCode := 200,
          relatedRequestMethod := "BYE" }),
      .caller .returns, .caller .returns, .deliver]

/-- What an undisturbed run stores of a call is what the tracker of the call
makes of its messages. That is the whole call exactly when the tracker has no
session left and drops none of them. -/
theorem stored_whole_iff (bufferSize : Int)
    (steps : List ImmediateDeploymentStep) (h : Undisturbed bufferSize steps)
    (hrest : (run bufferSize steps).AtRest) (c : String) :
    let ms := (captured steps).filter (·.callID = c)
    storedOf (run bufferSize steps).server c =
        (CallTrack.machine.run ms).stored ∧
      (storedOf (run bufferSize steps).server c = ms ↔
        (CallTrack.machine.run ms).live = none ∧
          CallTrack.machine.Along (fun t m => t.drops m = false) ms) := by
  intro ms
  have htracked := stored_as_tracked bufferSize steps h hrest c
  refine ⟨htracked, ?_⟩
  rw [htracked]
  exact CallTrack.stored_eq_iff ms

set_option maxRecDepth 8192 in
theorem answered_stored_whole :
    storedOf (run 1 answeredCall).server "a" =
      (captured answeredCall).filter (·.callID = "a") :=
  (stored_whole_iff 1 answeredCall (by decide) (by decide) "a").2.mpr
    (by decide)

end ImmediateDeployment

end Sipana
