import Mathlib.Data.List.Basic
import Sipana.Lib.Decimal
import Sipana.Lib.FirstSeen
import Sipana.Scenario.SIPScenario

/-!
# Positions of the hosts

`createHostListWithWeightPosition` goes through the messages and gives every
endpoint that is new a place to the right of the others. The invariant ties the
offset to the number of endpoints met so far.
-/

namespace Sipana

/-- An address and a port. -/
structure Endpoint where
  address : String
  port : Int
deriving DecidableEq, Repr

/-- The key of an endpoint. -/
def Endpoint.hostAddr (e : Endpoint) : String :=
  SIPScenario.hostAddr e.address e.port

namespace SIPScenario

open FirstSeen

/-- The endpoints of a message, source before destination. -/
def endpoints (message : SIPMessage) : List Endpoint :=
  [⟨message.base.srcAddress, message.base.srcPort⟩,
    ⟨message.base.dstAddress, message.base.dstPort⟩]

/-- The place of the `i`-th endpoint. -/
def position (i : Nat) : Int := 134 + 150 * i

/-! ## Keys -/

theorem append_cons_inj {α : Type*} {a : α} {l l' r r' : List α} (hl : a ∉ l)
    (hl' : a ∉ l') (h : l ++ a :: r = l' ++ a :: r') : l = l' ∧ r = r' := by
  induction l generalizing l' with
  | nil =>
    cases l' with
    | nil => exact ⟨rfl, (List.cons.inj h).2⟩
    | cons b l' =>
      exact absurd (List.cons.inj h).1 (List.ne_of_not_mem_cons hl')
  | cons c l ih =>
    cases l' with
    | nil =>
      exact absurd (List.cons.inj h).1.symm (List.ne_of_not_mem_cons hl)
    | cons b l' =>
      obtain ⟨rfl, htail⟩ := List.cons.inj h
      obtain ⟨rfl, rfl⟩ := ih (List.not_mem_of_not_mem_cons hl)
        (List.not_mem_of_not_mem_cons hl') htail
      exact ⟨rfl, rfl⟩

theorem colon_not_mem (n : Int) : ':' ∉ (toString n).toList.reverse := by
  intro hmem
  rcases Decimal.mem_toString (List.mem_reverse.mp hmem) with h | h
  · exact absurd h (by decide)
  · exact absurd h (by decide)

/-- The port comes after the last colon, whatever the address has. -/
theorem hostAddr_injective : Function.Injective Endpoint.hostAddr := by
  rintro ⟨address, port⟩ ⟨address', port'⟩ h
  have hlist := congrArg (List.reverse ∘ String.toList) h
  simp only [Function.comp_apply, Endpoint.hostAddr, hostAddr,
    String.toList_append, List.reverse_append] at hlist
  obtain ⟨hport, haddress⟩ :=
    append_cons_inj (colon_not_mem port) (colon_not_mem port') hlist
  have haddress' := String.toList_injective (List.reverse_injective haddress)
  have hport' := Decimal.toString_injective
    (String.toList_injective (List.reverse_injective hport))
  rw [haddress', hport']

/-! ## The loop -/

/-- The hosts after endpoints with the given keys. -/
structure HostList.Placed (hosts : HostList) (keys : List String) : Prop where
  filled : Filled position keys hosts.resHostList
  lineWeigh : hosts.lineWeigh = position keys.eraseDups.length

theorem HostList.Placed.add {hosts : HostList} {keys : List String}
    (h : hosts.Placed keys) (addr : String) :
    (hosts.add addr).Placed (keys ++ [addr]) := by
  unfold HostList.add
  cases hlookup : hosts.resHostList.lookup addr with
  | none =>
    have hnew : addr ∉ hosts.resHostList := Finmap.lookup_eq_none.mp hlookup
    have hkeys : addr ∉ keys :=
      fun hmem => hnew ((h.filled.mem_iff addr).mpr hmem)
    refine ⟨?_, ?_⟩
    · have hfresh := h.filled.fresh hnew
      rwa [← h.lineWeigh] at hfresh
    · rw [eraseDups_of_not_mem hkeys, List.length_append, h.lineWeigh]
      show position _ + 150 = position _
      unfold position
      rw [List.length_singleton]
      omega
  | some place =>
    have hold : addr ∈ hosts.resHostList :=
      Finmap.lookup_isSome.mp (by rw [hlookup]; rfl)
    have hkeys := (h.filled.mem_iff addr).mp hold
    refine ⟨h.filled.seen hold, ?_⟩
    rw [eraseDups_of_mem hkeys]
    exact h.lineWeigh

theorem HostList.placed_foldl (messages : List SIPMessage) :
    (messages.foldl HostList.addMessage {}).Placed
      ((messages.flatMap endpoints).map Endpoint.hostAddr) := by
  induction messages using List.reverseRecOn with
  | nil => exact ⟨filled_empty, rfl⟩
  | append_singleton messages message ih =>
    have hboth := (ih.add (srcAddr message)).add (dstAddr message)
    rw [List.foldl_append, List.flatMap_append, List.map_append]
    rw [List.append_assoc] at hboth
    exact hboth

/-- The map has exactly the keys of the endpoints, with their places in order of
first appearance. -/
theorem filled_hostList (messages : List SIPMessage) :
    Filled position ((messages.flatMap endpoints).map Endpoint.hostAddr)
      (createHostListWithWeightPosition messages) :=
  (HostList.placed_foldl messages).filled

/-! ## The layout -/

/-- The map has the endpoints of the messages, each at its place. -/
structure HostLayout (messages : List SIPMessage)
    (hostList : Finmap fun _ : String => Int) : Prop where
  keys : ∀ key, key ∈ hostList ↔
    ∃ e ∈ messages.flatMap endpoints, e.hostAddr = key
  separate : ∀ e e' : Endpoint, e.hostAddr = e'.hostAddr → e = e'
  placed : ∀ (i : Nat) (e : Endpoint),
    (messages.flatMap endpoints).eraseDups[i]? = some e →
      hostList.lookup e.hostAddr = some (134 + 150 * (i : Int))
  distinct : ∀ e ∈ messages.flatMap endpoints,
    ∀ e' ∈ messages.flatMap endpoints,
      hostList.lookup e.hostAddr = hostList.lookup e'.hostAddr → e = e'
  found : ∀ message ∈ messages,
    (hostList.lookup (srcAddr message)).isSome = true ∧
      (hostList.lookup (dstAddr message)).isSome = true

theorem mem_endpoints_of_mem {messages : List SIPMessage} {message : SIPMessage}
    (h : message ∈ messages) {e : Endpoint} (he : e ∈ endpoints message) :
    e ∈ messages.flatMap endpoints :=
  List.mem_flatMap.mpr ⟨message, h, he⟩

/-- Both hosts of every message have a place. -/
theorem hosts_found {messages : List SIPMessage} {message : SIPMessage}
    (h : message ∈ messages) :
    srcAddr message ∈ createHostListWithWeightPosition messages ∧
      dstAddr message ∈ createHostListWithWeightPosition messages := by
  have hkeys := (filled_hostList messages).mem_iff
  refine ⟨?_, ?_⟩
  · rw [hkeys, List.mem_map]
    exact ⟨_, mem_endpoints_of_mem h List.mem_cons_self, rfl⟩
  · rw [hkeys, List.mem_map]
    exact ⟨_, mem_endpoints_of_mem h
      (List.mem_cons_of_mem _ List.mem_cons_self), rfl⟩

theorem host_layout (messages : List SIPMessage) :
    HostLayout messages (createHostListWithWeightPosition messages) := by
  have hfilled := filled_hostList messages
  have hplaced : ∀ (i : Nat) (e : Endpoint),
      (messages.flatMap endpoints).eraseDups[i]? = some e →
        (createHostListWithWeightPosition messages).lookup e.hostAddr =
          some (position i) := by
    intro i e hi
    apply hfilled.lookup
    rw [eraseDups_map hostAddr_injective, List.getElem?_map, hi]
    rfl
  have hkeys : ∀ key, key ∈ createHostListWithWeightPosition messages ↔
      ∃ e ∈ messages.flatMap endpoints, e.hostAddr = key := by
    intro key
    rw [hfilled.mem_iff, List.mem_map]
  refine ⟨hkeys, hostAddr_injective, hplaced, ?_, ?_⟩
  · intro e he e' he' heq
    obtain ⟨i, hi⟩ := List.mem_iff_getElem?.mp (List.mem_eraseDups.mpr he)
    obtain ⟨j, hj⟩ := List.mem_iff_getElem?.mp (List.mem_eraseDups.mpr he')
    rw [hplaced i e hi, hplaced j e' hj, Option.some.injEq] at heq
    have hij : i = j := by
      unfold position at heq
      omega
    rw [hij, hj] at hi
    exact (Option.some.inj hi).symm
  · intro message hmem
    refine ⟨?_, ?_⟩
    · rw [Finmap.lookup_isSome, hkeys]
      exact ⟨_, mem_endpoints_of_mem hmem List.mem_cons_self, rfl⟩
    · rw [Finmap.lookup_isSome, hkeys]
      exact ⟨_, mem_endpoints_of_mem hmem
        (List.mem_cons_of_mem _ List.mem_cons_self), rfl⟩

/-- The second message goes back, and a third endpoint has a colon in its
address. -/
example : (createHostListWithWeightPosition
    [.request { callID := "a", method := "INVITE", time := 1,
                srcAddress := "10.0.0.1", srcPort := 5060,
                dstAddress := "10.0.0.2", dstPort := 5060 },
      .request { callID := "a", method := "BYE", time := 2,
                 srcAddress := "10.0.0.2", srcPort := 5060,
                 dstAddress := "::1", dstPort := 5060 }]).lookup "::1:5060" =
    some 434 := by decide

end SIPScenario

end Sipana
