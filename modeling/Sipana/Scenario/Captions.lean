import Sipana.Scenario.Geometry

/-!
# What is written into a diagram

The texts of a diagram, in the order in which they are drawn: for every message,
from top to bottom, its time relative to the first one and what it says, then
the heading and the hosts.
-/

namespace Sipana

/-- The texts that are drawn. -/
def captions (calls : List GraphicsCall) : List String :=
  calls.filterMap fun
    | .drawString text _ _ => some text
    | _ => none

@[simp] theorem captions_append (calls calls' : List GraphicsCall) :
    captions (calls ++ calls') = captions calls ++ captions calls' :=
  List.filterMap_append

namespace SIPScenario

variable {colors : List Color} {arrowSize : ArrowSize} {order : KeyOrder}
  {σ σ' : SIPScenario colors}

/-- The texts in the row of a message. -/
def rowCaptions (startTime : Int) (message : SIPMessage) : List String :=
  [toString (message.time - startTime), messageText message]

/-- The hosts of the messages, each once. -/
structure HostNames (messages : List SIPMessage) (hosts : List String) :
    Prop where
  nodup : hosts.Nodup
  mem_iff : ∀ host, host ∈ hosts ↔
    ∃ message ∈ messages, host = srcAddr message ∨ host = dstAddr message

/-- The texts of a diagram of messages. -/
def Captioned : List SIPMessage → List String → Prop
  | [], texts =>
    texts = ["Empty message list. Unable to draw SIP scenario."]
  | first :: messages, texts => ∃ hosts,
    HostNames (first :: messages) hosts ∧
      texts = (first :: messages).flatMap (rowCaptions first.time) ++
        "Delta" :: hosts

theorem captions_drawRows {startTime : Option Int} {h : Int}
    {messages : List SIPMessage} {calls : List GraphicsCall}
    (hdraw : σ.drawRows arrowSize startTime h messages = some (calls, σ'))
    {t : Int} (ht : ∀ first ∈ messages.head?, startTime.getD first.time = t) :
    captions calls = messages.flatMap (rowCaptions t) := by
  induction messages generalizing σ startTime h calls with
  | nil =>
    obtain ⟨rfl, rfl⟩ := Prod.mk.inj (Option.some.inj hdraw)
    rfl
  | cons message messages ih =>
    obtain ⟨srcWPos, dstWPos, color, τ, rows, -, -, -, hrows, rfl⟩ :=
      drawRows_cons hdraw
    have hstart : startTime.getD message.time = t := ht message rfl
    -- the time of the first row is kept for the others
    have hrest := ih hrows fun _ _ => hstart
    rw [captions_append, hrest, hstart, List.flatMap_cons]
    rfl

theorem captions_hosts {height : Int} {hostList : Finmap fun _ : String => Int}
    {keys : List String} {hosts : List (List GraphicsCall)}
    (h : keys.mapM (hostCalls height hostList) = some hosts) :
    captions hosts.flatten = keys := by
  induction keys generalizing hosts with
  | nil =>
    obtain rfl := Option.some.inj h
    rfl
  | cons key keys ih =>
    simp only [List.mapM_cons, Option.bind_eq_bind,
      Option.bind_eq_some_iff] at h
    obtain ⟨part, hpart, rest, hrest, heq⟩ := h
    obtain rfl := Option.some.inj heq
    obtain ⟨place, -, rfl⟩ := Option.map_eq_some_iff.mp hpart
    rw [List.flatten_cons, captions_append, ih hrest]
    rfl

theorem captions_drawHosts {height : Int}
    {hostList : Finmap fun _ : String => Int} {calls : List GraphicsCall}
    (h : drawHosts order height hostList = some calls) :
    captions calls = "Delta" :: order.keySet hostList := by
  obtain ⟨hosts, hmap, rfl⟩ := Option.map_eq_some_iff.mp h
  rw [captions_append, captions_hosts hmap]
  rfl

theorem hostNames (order : KeyOrder) (messages : List SIPMessage) :
    HostNames messages
      (order.keySet (createHostListWithWeightPosition messages)) := by
  constructor
  · rw [← Multiset.coe_nodup, order.coe_keySet]
    exact Finset.nodup _
  · intro host
    rw [mem_keySet, (filled_hostList messages).mem_iff, List.mem_map]
    constructor
    · intro h
      obtain ⟨e, he, rfl⟩ := h
      obtain ⟨message, hmem, he⟩ := List.mem_flatMap.mp he
      simp only [endpoints, List.mem_cons, List.not_mem_nil, or_false] at he
      rcases he with rfl | rfl
      · exact ⟨message, hmem, Or.inl rfl⟩
      · exact ⟨message, hmem, Or.inr rfl⟩
    · intro h
      obtain ⟨message, hmem, rfl | rfl⟩ := h
      · exact ⟨_, mem_endpoints_of_mem hmem List.mem_cons_self, rfl⟩
      · exact ⟨_, mem_endpoints_of_mem hmem
          (List.mem_cons_of_mem _ List.mem_cons_self), rfl⟩

/-- Whatever is drawn has the texts of its messages. -/
theorem captioned_create {calls : List GraphicsCall}
    (h : σ.create arrowSize order = some (calls, σ')) :
    Captioned σ.messages (captions calls) := by
  cases hmessages : σ.messages with
  | nil =>
    have hlength : ¬ σ.withSize.messages.length > 0 := by
      rw [messages_withSize, hmessages]
      simp
    have hfits := imageFits_of_create h
    simp only [create, if_neg (not_not.mpr hfits), if_neg hlength] at h
    obtain ⟨rfl, -⟩ := Prod.mk.inj (Option.some.inj h)
    rfl
  | cons first messages =>
    have hne : σ.messages ≠ [] := by
      rw [hmessages]
      exact List.cons_ne_nil _ _
    obtain ⟨messageCalls, hostCalls, hdraw, hhosts, rfl⟩ :=
      create_eq_some hne h
    obtain ⟨-, hhostList, -, -⟩ := drawRows_frame hdraw
    rw [hhostList, (withSize_frame σ hne).1, σ.hostList_eq, hmessages]
      at hhosts
    rw [drawMessages, messages_withSize, hmessages] at hdraw
    refine ⟨_, hostNames order (first :: messages), ?_⟩
    have hrows := captions_drawRows (t := first.time) hdraw
      fun _ hm => by rw [← Option.some.inj hm]; rfl
    rw [List.cons_append, ← captions_drawHosts hhosts, ← hrows,
      ← captions_append]
    rfl

end SIPScenario

end Sipana
