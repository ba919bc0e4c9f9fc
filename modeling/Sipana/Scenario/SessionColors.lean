import Mathlib.Data.List.GetD
import Mathlib.Data.Nat.ModEq
import Sipana.Lib.FirstSeen
import Sipana.Scenario.SIPScenario

/-!
# Colours of the sessions

A Call-ID gets the next colour when it appears for the first time and keeps it.
The counter rests at the number of colours until the next new Call-ID sets it
back, so it counts the distinct Call-IDs modulo that number.
-/

namespace Sipana.SIPScenario

open FirstSeen

variable {colors : List Color} {σ σ' : SIPScenario colors}
  {callIds : List (Option String)} {callId : Option String} {color : Color}

/-- The colours, over and over. -/
def cycle (colors : List Color) (i : Nat) : Color :=
  colors.getD (i % colors.length) Color.BLACK

/-- The colour of a Call-ID after the given ones. -/
def sessionColor (colors : List Color) (callIds : List (Option String))
    (callId : Option String) : Color :=
  cycle colors (callIds.eraseDups.idxOf callId)

/-! ## One call -/

/-- The state after calls with the given Call-IDs. -/
structure Coloured (callIds : List (Option String)) (σ : SIPScenario colors) :
    Prop where
  filled : Filled (cycle colors) callIds σ.sessionColors
  counter : σ.currColor % colors.length =
    callIds.eraseDups.length % colors.length

theorem coloured_ofMessages (messages : List SIPMessage) :
    (ofMessages messages : SIPScenario colors).Coloured [] :=
  ⟨filled_empty, rfl⟩

/-- The index for a Call-ID that is new. -/
theorem Coloured.restartColor_eq (h : σ.Coloured callIds) :
    σ.restartColor = callIds.eraseDups.length % colors.length := by
  rw [← h.counter, restartColor]
  split
  · next hend => rw [hend, Nat.mod_self]
  · next hend =>
    have hlt := Nat.lt_of_le_of_ne σ.currColor_le hend
    rw [Nat.mod_eq_of_lt hlt]

theorem getSessionColor_spec (hcolors : colors ≠ []) (h : σ.Coloured callIds)
    (callId : Option String) :
    ∃ σ', σ.getSessionColor callId =
        some (sessionColor colors (callIds ++ [callId]) callId, σ') ∧
      σ'.Coloured (callIds ++ [callId]) := by
  unfold getSessionColor
  cases hlookup : σ.sessionColors.lookup callId with
  | some color =>
    have hold : callId ∈ σ.sessionColors :=
      Finmap.lookup_isSome.mp (by rw [hlookup]; rfl)
    have hmem := (h.filled.mem_iff callId).mp hold
    refine ⟨σ, ?_, h.filled.seen hold, ?_⟩
    · rw [h.filled.lookup_of_mem hmem] at hlookup
      rw [sessionColor, idxOf_append hmem, ← Option.some.inj hlookup]
    · rw [eraseDups_of_mem hmem]
      exact h.counter
  | none =>
    have hnew : callId ∉ σ.sessionColors := Finmap.lookup_eq_none.mp hlookup
    have hmem : callId ∉ callIds :=
      fun hmem => hnew ((h.filled.mem_iff callId).mpr hmem)
    have hindex := h.restartColor_eq
    have hlt : σ.restartColor < colors.length := by
      rw [hindex]
      exact Nat.mod_lt _ (List.length_pos_iff.mpr hcolors)
    have hcolor : colors[σ.restartColor] =
        cycle colors callIds.eraseDups.length := by
      rw [cycle, ← hindex, List.getD_eq_getElem _ _ hlt]
    have hplace : sessionColor colors (callIds ++ [callId]) callId =
        cycle colors callIds.eraseDups.length := by
      have hdups : callId ∉ callIds.eraseDups :=
        fun hdups => hmem (List.mem_eraseDups.mp hdups)
      rw [sessionColor, eraseDups_of_not_mem hmem,
        List.idxOf_append_of_notMem hdups, List.idxOf_cons_self, Nat.add_zero]
    simp only [hlt, dite_true, hcolor, hplace]
    refine ⟨_, rfl, h.filled.fresh hnew, ?_⟩
    rw [eraseDups_of_not_mem hmem, List.length_append, List.length_singleton]
    show (σ.restartColor + 1) % _ = _
    rw [hindex, Nat.mod_add_mod]

/-! ## Any sequence of calls -/

/-- One call after another, with the colours that they return. -/
def getSessionColors (σ : SIPScenario colors) :
    List (Option String) → Option (List Color × SIPScenario colors)
  | [] => some ([], σ)
  | callId :: callIds => do
    let (color, σ) ← σ.getSessionColor callId
    let (colors, σ) ← σ.getSessionColors callIds
    return (color :: colors, σ)

theorem getSessionColors_spec (hcolors : colors ≠ [])
    {before : List (Option String)} (h : σ.Coloured before)
    (callIds : List (Option String)) :
    ∃ σ', σ.getSessionColors callIds =
        some (callIds.map (sessionColor colors (before ++ callIds)), σ') ∧
      σ'.Coloured (before ++ callIds) := by
  induction callIds generalizing σ before with
  | nil => exact ⟨σ, rfl, by rwa [List.append_nil]⟩
  | cons callId callIds ih =>
    obtain ⟨τ, hcall, hτ⟩ := getSessionColor_spec hcolors h callId
    obtain ⟨σ', hcalls, hσ'⟩ := ih hτ
    rw [List.append_assoc, List.singleton_append] at hcalls hσ'
    refine ⟨σ', ?_, hσ'⟩
    have hplace : sessionColor colors (before ++ [callId]) callId =
        sessionColor colors (before ++ callId :: callIds) callId := by
      have hmem : callId ∈ before ++ [callId] := by simp
      unfold sessionColor
      rw [← idxOf_append hmem callIds, List.append_assoc,
        List.singleton_append]
    simp [getSessionColors, hcall, hcalls, hplace]

theorem cycle_eq_iff (hcolors : colors ≠ []) (hnodup : colors.Nodup)
    (i j : Nat) :
    cycle colors i = cycle colors j ↔ i ≡ j [MOD colors.length] := by
  have hlt := fun n : Nat => Nat.mod_lt n (List.length_pos_iff.mpr hcolors)
  rw [cycle, cycle, List.getD_eq_getElem _ _ (hlt i),
    List.getD_eq_getElem _ _ (hlt j), hnodup.getElem_inj_iff]
  rfl

/-- Every call returns a colour, the same for the same Call-ID, and the `i`-th
and the `j`-th distinct Call-ID have the same colour exactly when `i` and `j`
are congruent. -/
theorem session_colors (hcolors : colors ≠ []) (hnodup : colors.Nodup)
    (messages : List SIPMessage) (callIds : List (Option String)) :
    ∃ (colorOf : Option String → Color) (σ' : SIPScenario colors),
      (ofMessages messages).getSessionColors callIds =
        some (callIds.map colorOf, σ') ∧
      ∀ (i j : Nat) (c d : Option String), callIds.eraseDups[i]? = some c →
        callIds.eraseDups[j]? = some d →
          (colorOf c = colorOf d ↔ i ≡ j [MOD colors.length]) := by
  obtain ⟨σ', hcalls, -⟩ := getSessionColors_spec hcolors
    (coloured_ofMessages messages) callIds
  refine ⟨sessionColor colors callIds, σ', hcalls, ?_⟩
  intro i j c d hi hj
  rw [sessionColor, sessionColor, idxOf_of_getElem? hi, idxOf_of_getElem? hj]
  exact cycle_eq_iff hcolors hnodup i j

theorem session_colors_two : ∃ (colorOf : Option String → Color)
    (σ' : SIPScenario [⟨0x64ff64⟩, ⟨0x79b8ff⟩]),
    (ofMessages []).getSessionColors [some "a", some "b", some "a", none] =
      some ([some "a", some "b", some "a", none].map colorOf, σ') ∧
    ∀ (i j : Nat) (c d : Option String),
      [some "a", some "b", some "a", none].eraseDups[i]? = some c →
      [some "a", some "b", some "a", none].eraseDups[j]? = some d →
        (colorOf c = colorOf d ↔ i ≡ j [MOD 2]) :=
  session_colors (by decide) (by decide) [] _

/-! ## Colours in a diagram -/

/-- The colours with which rectangles are filled. -/
def fillColors (color : Color) : List GraphicsCall → List Color
  | [] => []
  | .setColor color' :: calls => fillColors color' calls
  | .fill _ :: calls => color :: fillColors color calls
  | _ :: calls => fillColors color calls

theorem fillColors_append {calls' : List GraphicsCall}
    (h : ∀ color, fillColors color calls' = []) (color : Color)
    (calls : List GraphicsCall) :
    fillColors color (calls ++ calls') = fillColors color calls := by
  induction calls generalizing color with
  | nil => exact h color
  | cons call calls ih => cases call <;> simp [fillColors, ih]

theorem fillColors_of_not_mem {calls : List GraphicsCall}
    (h : ∀ r, .fill r ∉ calls) (color : Color) :
    fillColors color calls = [] := by
  induction calls generalizing color with
  | nil => rfl
  | cons call calls ih =>
    have htail := ih fun r hr => h r (List.mem_cons_of_mem call hr)
    cases call with
    | fill r => exact absurd List.mem_cons_self (h r)
    | _ => exact htail _

theorem drawRows_colors {arrowSize : ArrowSize} {startTime : Option Int}
    {h : Int} {messages : List SIPMessage} {calls : List GraphicsCall}
    (hdraw : σ.drawRows arrowSize startTime h messages = some (calls, σ'))
    (color : Color) :
    σ.getSessionColors (messages.map (some ∘ SIPMessage.callID)) =
      some (fillColors color calls, σ') := by
  induction messages generalizing σ startTime h calls color with
  | nil =>
    obtain ⟨rfl, rfl⟩ := Prod.mk.inj (Option.some.inj hdraw)
    rfl
  | cons message messages ih =>
    obtain ⟨src, dst, msgBkgrdColor, τ, rows, -, -, hcolor, hrows, rfl⟩ :=
      drawRows_cons hdraw
    have hrest := ih hrows Color.BLACK
    simp [getSessionColors, hcolor, hrest, messageCalls, fillColors]

/-- A diagram is coloured by calls of `getSessionColor` with the Call-IDs of its
messages, one after another. -/
theorem create_colors {arrowSize : ArrowSize} {order : KeyOrder}
    {calls : List GraphicsCall} (hmessages : σ.messages ≠ [])
    (h : σ.create arrowSize order = some (calls, σ')) :
    σ.withSize.getSessionColors
        (σ.messages.map (some ∘ SIPMessage.callID)) =
      some (fillColors Color.BLACK calls, σ') := by
  obtain ⟨messageCalls, hostCalls, hdraw, hhosts, rfl⟩ :=
    create_eq_some hmessages h
  have hnofill : ∀ r, .fill r ∉ hostCalls := by
    intro r hr
    rcases (mem_drawHosts_iff hhosts _).mp hr with h | h | ⟨_, _, -, h | h⟩ <;>
      cases h
  have hrows := drawRows_colors hdraw Color.BLACK
  rw [σ.messages_withSize] at hrows
  rw [hrows, List.cons_append]
  show some (_, σ') = some (fillColors Color.BLACK (_ ++ _), σ')
  rw [fillColors_append (fillColors_of_not_mem hnofill)]

/-- Diagrams that are created again go on with the colours of the first. -/
theorem create_coloured {arrowSize : ArrowSize} {order : KeyOrder}
    {calls : List GraphicsCall} (hcolors : colors ≠ [])
    (hmessages : σ.messages ≠ []) (hσ : σ.Coloured callIds)
    (h : σ.create arrowSize order = some (calls, σ')) :
    σ'.Coloured (callIds ++ σ.messages.map (some ∘ SIPMessage.callID)) ∧
      fillColors Color.BLACK calls =
        σ.messages.map (sessionColor colors
          (callIds ++ σ.messages.map (some ∘ SIPMessage.callID)) ∘
            (some ∘ SIPMessage.callID)) := by
  have hsize : σ.withSize.Coloured callIds := by
    unfold withSize
    split
    · exact ⟨hσ.filled, hσ.counter⟩
    · exact ⟨hσ.filled, hσ.counter⟩
  obtain ⟨τ, hcalls, hτ⟩ := getSessionColors_spec hcolors hsize
    (σ.messages.map (some ∘ SIPMessage.callID))
  rw [create_colors hmessages h, Option.some.injEq, Prod.mk.injEq] at hcalls
  obtain ⟨hfill, rfl⟩ := hcalls
  exact ⟨hτ, by rw [hfill, List.map_map]⟩

end Sipana.SIPScenario
