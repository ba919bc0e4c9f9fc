import Sipana.Server.SIPPerformanceMetrics

/-!
# Hops per request

The metric is the difference of two Max-Forwards values: that of the first and
that of the last request with the initial method. A request loses one at each
host, so along the path the difference counts the hops. But the last request is
the one captured last, and a copy that is retransmitted from the middle of the
path comes after the one captured at its end.
-/

namespace Sipana

namespace SIPSession

/-- The requests with the initial method, in the order of capture. -/
def initialRequests (s : SIPSession) : List SIPRequest :=
  s.messages.filterMap fun
    | .request r => if r.method = s.requestMethod then some r else none
    | .response _ => none

/-- The Max-Forwards values of these requests. -/
def forwards (s : SIPSession) : List Int :=
  s.initialRequests.map (·.maxForwards)

/-- The Max-Forwards values along a path of `k` hops. -/
def path (m : Int) (k : Nat) : List Int :=
  (List.range (k + 1)).map fun (i : Nat) => m - i

/-- The initial request was captured at every host of a path of `k` hops, and
then `copies` of it at hosts of that path. -/
structure CapturedAlong (s : SIPSession) (m : Int) (k : Nat)
    (copies : List Int) : Prop where
  inOrder : s.forwards = path m k ++ copies
  onPath : ∀ c ∈ copies, m - k ≤ c ∧ c ≤ m

theorem head?_path (m : Int) (k : Nat) : (path m k).head? = some m := by
  simp [path, List.range_succ_eq_map]

theorem getLast?_path (m : Int) (k : Nat) :
    (path m k).getLast? = some (m - k) := by
  simp [path, List.range_succ]

end SIPSession

namespace SIPPerformanceMetrics

open SIPSession

/-- The loop finds the first and the last of the requests it is looking for. -/
theorem foldl_firstAndLast (method : String) (messages : List SIPMessage)
    (first last : Option SIPRequest) :
    messages.foldl (firstAndLast method) (first, last) =
      let requests := messages.filterMap fun
        | .request r => if r.method = method then some r else none
        | .response _ => none
      (first.or requests.head?, requests.getLast?.or last) := by
  induction messages generalizing first last with
  | nil => simp
  | cons m rest ih =>
    rw [List.foldl_cons]
    cases m with
    | response p => exact ih first last
    | request r =>
      by_cases hmethod : r.method = method
      · simp only [firstAndLast, hmethod, if_true, ih, List.filterMap_cons,
          List.head?_cons, List.getLast?_cons]
        refine Prod.ext ?_ ?_
        · cases first <;> simp
        · generalize (rest.filterMap _).getLast? = final
          cases final <;> rfl
      · simp only [firstAndLast, hmethod, if_false, ih, List.filterMap_cons]

theorem getHopsPerRequest_eq (s : SIPSession) :
    getHopsPerRequest s =
      s.forwards.head?.getD 0 - s.forwards.getLast?.getD 0 := by
  unfold getHopsPerRequest forwards initialRequests
  simp only [foldl_firstAndLast, Option.none_or, Option.or_none]
  generalize s.messages.filterMap _ = requests
  rcases List.eq_nil_or_concat requests with rfl | ⟨front, last, rfl⟩
  · rfl
  · rw [List.concat_eq_append, List.map_append, List.map_singleton,
      List.getLast?_concat, List.getLast?_concat]
    cases front <;> simp

/-- The last copy stands for the end of the path. -/
theorem getHopsPerRequest_captured {s : SIPSession} {m : Int} {k : Nat}
    {copies : List Int} (h : s.CapturedAlong m k copies) :
    getHopsPerRequest s = m - copies.getLast?.getD (m - k) := by
  rw [getHopsPerRequest_eq, h.inOrder, List.head?_append, List.getLast?_append,
    head?_path, getLast?_path]
  cases copies.getLast? <;> rfl

theorem getHopsPerRequest_nonneg {s : SIPSession} {m : Int} {k : Nat}
    {copies : List Int} (h : s.CapturedAlong m k copies) :
    0 ≤ getHopsPerRequest s := by
  rw [getHopsPerRequest_captured h]
  cases hlast : copies.getLast? with
  | none => simp
  | some c =>
    have hc := (h.onPath c (List.mem_of_getLast? hlast)).2
    rw [Option.getD_some]
    omega

/-- The metric counts the hops exactly when the last copy, if there are any,
was captured at the end of the path. -/
theorem hops_counted_iff {s : SIPSession} {m : Int} {k : Nat}
    {copies : List Int} (h : s.CapturedAlong m k copies) :
    (getHopsPerRequest s = k ∧ 0 ≤ getHopsPerRequest s) ↔
      ∀ c ∈ copies.getLast?, c = m - k := by
  rw [and_iff_left (getHopsPerRequest_nonneg h), getHopsPerRequest_captured h]
  cases copies.getLast? with
  | none => simp
  | some c =>
    simp only [Option.getD_some, Option.mem_def, Option.some.injEq,
      forall_eq']
    omega

/-- An INVITE that was captured at the hosts with these Max-Forwards values, and
the response to it. -/
def invited (forwards : List Int) : SIPSession where
  state := .initiated
  callId := "a"
  requestMethod := Request.INVITE
  fromUser := "alice@a"
  toUser := "bob@b"
  messages :=
    forwards.map (fun m => .request
      { callID := "a", time := 1, method := Request.INVITE, maxForwards := m })
      ++ [.response { callID := "a", time := 2, statusCode := Response.OK,
                      relatedRequestMethod := Request.INVITE }]

/-- Two hops, and a copy from the last host. -/
theorem hops_counted_two :
    (getHopsPerRequest (invited [70, 69, 68, 68]) = (2 : Nat) ∧
      0 ≤ getHopsPerRequest (invited [70, 69, 68, 68])) ↔
        ∀ c ∈ ([68] : List Int).getLast?, c = 70 - (2 : Nat) :=
  hops_counted_iff ⟨by decide, by decide⟩

/-- A request of two hops that the first host retransmits counts no hop. -/
theorem retransmission_hides_hops :
    ¬ ∀ s m k copies, SIPSession.CapturedAlong s m k copies →
      getHopsPerRequest s = k ∧ 0 ≤ getHopsPerRequest s := by
  intro h
  have hhops := h (invited [70, 69, 68, 70]) 70 2 [70] ⟨by decide, by decide⟩
  exact absurd hhops.1 (by decide)

end SIPPerformanceMetrics

end Sipana
