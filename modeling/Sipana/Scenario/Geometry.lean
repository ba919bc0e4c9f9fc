import Mathlib.Data.Finset.Sort
import Mathlib.Data.Set.Basic
import Mathlib.Data.String.Basic
import Sipana.Scenario.HostList

/-!
# The geometry of a diagram

The size of the image, the positions of the hosts and the offsets of the rows
come from separate constants of `SIPScenario`. They fit together: nothing is
drawn outside the image, the rows are stacked without gaps, and the lines of the
hosts reach below the last row.
-/

namespace Sipana

/-- The pixels that are filled. -/
def Rectangle.area (r : Rectangle) : Set (Int × Int) :=
  {p | (r.x ≤ p.1 ∧ p.1 < r.x + r.width) ∧ r.y ≤ p.2 ∧ p.2 < r.y + r.height}

/-- A point of an image of the given size. -/
def InImage (width height x y : Int) : Prop :=
  (0 ≤ x ∧ x < width) ∧ 0 ≤ y ∧ y ≤ height

def Rectangle.Inside (width height : Int) (r : Rectangle) : Prop :=
  InImage width height r.x r.y ∧
    InImage width height (r.x + r.width) (r.y + r.height)

/-- Everything that the call names is in the image. -/
def GraphicsCall.Inside (width height : Int) : GraphicsCall → Prop
  | .clearRect x y width' height' =>
    Rectangle.Inside width height ⟨x, y, width', height'⟩
  | .setColor _ => True
  | .fill r | .draw r => r.Inside width height
  | .drawString _ x y => InImage width height x y
  | .drawLine x₁ y₁ x₂ y₂ =>
    InImage width height x₁ y₁ ∧ InImage width height x₂ y₂
  | .fillPolygon points | .drawPolygon points =>
    ∀ p ∈ points, InImage width height p.1 p.2

/-- The arrow heads fit between the hosts and into the rows. -/
structure ArrowSize.Fits (arrowSize : ArrowSize) : Prop where
  width : 0 ≤ arrowSize.width ∧ arrowSize.width ≤ 95
  height : 0 ≤ arrowSize.height ∧ arrowSize.height ≤ 13

/-- The rectangles that are filled. -/
def boxes (calls : List GraphicsCall) : List Rectangle :=
  calls.filterMap fun
    | .fill r => some r
    | _ => none

namespace SIPScenario

variable {colors : List Color} {arrowSize : ArrowSize} {order : KeyOrder}
  {σ σ' : SIPScenario colors}

/-- What a diagram looks like. -/
structure Geometry (σ : SIPScenario colors)
    (messageCalls hostCalls : List GraphicsCall) : Prop where
  inside : ∀ call ∈ messageCalls ++ hostCalls,
    call.Inside σ.imgWidth σ.imgHeight
  length_boxes : (boxes messageCalls).length = σ.messages.length
  adjacent : ∀ (k : Nat) (r r' : Rectangle),
    (boxes messageCalls)[k]? = some r →
    (boxes messageCalls)[k + 1]? = some r' →
      r'.x = r.x ∧ r'.width = r.width ∧ r'.y = r.y + r.height
  disjoint : ∀ (k l : Nat) (r r' : Rectangle), k ≠ l →
    (boxes messageCalls)[k]? = some r → (boxes messageCalls)[l]? = some r' →
      r.area ∩ r'.area = ∅
  lines : ∀ key ∈ σ.hostList, ∃ x y₁ y₂, σ.hostList.lookup key = some x ∧
    .drawLine x y₁ x y₂ ∈ hostCalls ∧
      ∀ r ∈ boxes messageCalls, r.y + r.height ≤ y₂

/-! ## Rows -/

/-- Between the first and the last host. -/
def Column (width x : Int) : Prop := 134 ≤ x ∧ x ≤ width - 96

/-- Between the first and the last row. -/
def Row (height y : Int) : Prop := 45 ≤ y ∧ y ≤ height - 41

theorem messageCalls_inside (hfits : arrowSize.Fits)
    {width height h startTime srcWPos dstWPos : Int} {color : Color}
    {message : SIPMessage} (hsrc : Column width srcWPos)
    (hdst : Column width dstWPos) (hrow : Row height h) :
    ∀ call ∈ messageCalls arrowSize (width - IMAGE_BORDER * 2) h startTime
      srcWPos dstWPos color message, call.Inside width height := by
  obtain ⟨hw, hh⟩ := hfits
  unfold Column at hsrc hdst
  unfold Row at hrow
  have hbox :
      (msgColorBox (width - IMAGE_BORDER * 2) h).Inside width height := by
    simp only [Rectangle.Inside, InImage, msgColorBox, IMAGE_BORDER, MSG_STEP_H]
    omega
  have harrow : ∀ p ∈ arrow arrowSize srcWPos dstWPos h,
      InImage width height p.1 p.2 := by
    intro p hp
    simp only [arrow, List.mem_cons, List.not_mem_nil, or_false] at hp
    unfold InImage
    rcases hp with rfl | rfl | rfl
    · simp only
      omega
    · simp only
      split <;> omega
    · simp only
      split <;> omega
  have htext : InImage width height (textWPos srcWPos dstWPos) (h - 2) := by
    simp only [InImage, textWPos, HOST_STEP_W]
    split <;> omega
  intro call hcall
  simp only [messageCalls, List.mem_cons, List.not_mem_nil, or_false] at hcall
  rcases hcall with rfl | rfl | rfl | rfl | rfl | rfl | rfl | rfl | rfl
  · trivial
  · exact hbox
  · exact hbox
  · trivial
  · simp only [GraphicsCall.Inside, InImage, IMAGE_BORDER]
    omega
  · simp only [GraphicsCall.Inside, InImage]
    omega
  · exact harrow
  · exact harrow
  · exact htext

theorem drawRows_inside (hfits : arrowSize.Fits) {startTime : Option Int}
    {h height : Int} {messages : List SIPMessage} {calls : List GraphicsCall}
    (hdraw : σ.drawRows arrowSize startTime h messages = some (calls, σ'))
    (hcolumns : ∀ key x, σ.hostList.lookup key = some x → Column σ.imgWidth x)
    (hfirst : 45 ≤ h) (hlast : h + 26 * messages.length ≤ height - 15) :
    ∀ call ∈ calls, call.Inside σ.imgWidth height := by
  induction messages generalizing σ startTime h calls with
  | nil =>
    obtain ⟨rfl, rfl⟩ := Prod.mk.inj (Option.some.inj hdraw)
    exact fun call hcall => absurd hcall List.not_mem_nil
  | cons message messages ih =>
    obtain ⟨srcWPos, dstWPos, color, τ, rows, hsrc, hdst, hcolor, hrows, rfl⟩ :=
      drawRows_cons hdraw
    obtain ⟨-, hhosts, hwidth, -⟩ := getSessionColor_frame hcolor
    rw [List.length_cons] at hlast
    have hrow : Row height h := ⟨hfirst, by omega⟩
    intro call hcall
    rcases List.mem_append.mp hcall with hcall | hcall
    · rw [hwidth] at hcall
      exact messageCalls_inside hfits (hcolumns _ _ hsrc) (hcolumns _ _ hdst)
        hrow call hcall
    · have hrest := ih hrows (by rwa [hhosts, hwidth])
        (by unfold MSG_STEP_H; omega) (by unfold MSG_STEP_H; omega)
      rw [hwidth] at hrest
      exact hrest call hcall

/-- The rows lie below one another. -/
theorem boxes_drawRows {startTime : Option Int} {h : Int}
    {messages : List SIPMessage} {calls : List GraphicsCall}
    (hdraw : σ.drawRows arrowSize startTime h messages = some (calls, σ')) :
    boxes calls = (List.range messages.length).map fun k : Nat =>
      msgColorBox (σ.imgWidth - IMAGE_BORDER * 2) (h + 26 * k) := by
  induction messages generalizing σ startTime h calls with
  | nil =>
    obtain ⟨rfl, rfl⟩ := Prod.mk.inj (Option.some.inj hdraw)
    rfl
  | cons message messages ih =>
    obtain ⟨srcWPos, dstWPos, color, τ, rows, -, -, hcolor, hrows, rfl⟩ :=
      drawRows_cons hdraw
    obtain ⟨-, -, hwidth, -⟩ := getSessionColor_frame hcolor
    have hbox : boxes (messageCalls arrowSize (τ.imgWidth - IMAGE_BORDER * 2) h
        (startTime.getD message.time) srcWPos dstWPos color message ++ rows) =
          msgColorBox (τ.imgWidth - IMAGE_BORDER * 2) h :: boxes rows := rfl
    rw [hbox, ih hrows, hwidth, List.length_cons, List.range_succ_eq_map,
      List.map_cons, List.map_map, Nat.cast_zero, Int.mul_zero, Int.add_zero]
    congr 2
    funext k
    have hoffset : h + MSG_STEP_H + 26 * (k : Int) =
        h + 26 * ((k + 1 : Nat) : Int) := by
      unfold MSG_STEP_H
      omega
    rw [hoffset]
    rfl

/-! ## The diagram -/

theorem withSize_frame (σ : SIPScenario colors) (hmessages : σ.messages ≠ []) :
    σ.withSize.hostList = σ.hostList ∧
      σ.withSize.imgWidth = 150 * σ.hostList.keys.card + 80 ∧
      σ.withSize.imgHeight = 26 * σ.messages.length + 60 := by
  rw [withSize, if_pos (List.length_pos_iff.mpr hmessages)]
  exact ⟨rfl, rfl, rfl⟩

/-- The positions of the hosts are in the image. -/
theorem column_of_lookup (σ : SIPScenario colors) (hmessages : σ.messages ≠ [])
    {key : String} {x : Int} (h : σ.hostList.lookup key = some x) :
    Column σ.withSize.imgWidth x := by
  have hfilled := filled_hostList σ.messages
  rw [← σ.hostList_eq] at hfilled
  have hmem : key ∈ σ.hostList := Finmap.lookup_isSome.mp (by rw [h]; rfl)
  obtain ⟨i, hi⟩ := List.mem_iff_getElem?.mp
    (List.mem_eraseDups.mpr ((hfilled.mem_iff key).mp hmem))
  have hplace := hfilled.lookup i key hi
  have hlt := (List.getElem?_eq_some_iff.mp hi).1
  rw [← hfilled.card_keys] at hlt
  rw [h, Option.some.injEq] at hplace
  rw [(withSize_frame σ hmessages).2.1, hplace]
  unfold Column position
  omega

/-- Nothing fails while a diagram is drawn. -/
theorem exists_drawn (arrowSize : ArrowSize) (order : KeyOrder)
    (hcolors : colors ≠ []) (σ : SIPScenario colors)
    (hmessages : σ.messages ≠ []) :
    ∃ messageCalls σ' hostCalls,
      σ.withSize.drawMessages arrowSize = some (messageCalls, σ') ∧
      drawHosts order σ'.imgHeight σ'.hostList = some hostCalls := by
  have hdraw : (σ.withSize.drawMessages arrowSize).isSome = true := by
    refine drawRows_isSome hcolors ?_ none _
    intro message hmessage
    rw [messages_withSize] at hmessage
    rw [(withSize_frame σ hmessages).1, σ.hostList_eq, Finmap.lookup_isSome,
      Finmap.lookup_isSome]
    exact hosts_found hmessage
  obtain ⟨⟨messageCalls, σ'⟩, hmessageCalls⟩ :=
    Option.isSome_iff_exists.mp hdraw
  have hhosts : (drawHosts order σ'.imgHeight σ'.hostList).isSome = true :=
    drawHosts_isSome σ'.imgHeight σ'.hostList
  obtain ⟨hostCalls, hhosts⟩ := Option.isSome_iff_exists.mp hhosts
  exact ⟨messageCalls, σ', hostCalls, hmessageCalls, hhosts⟩

/-- A diagram is created exactly when its image is not too large. -/
theorem create_isSome_iff (hcolors : colors ≠ []) (σ : SIPScenario colors) :
    (σ.create arrowSize order).isSome = true ↔
      ImageFits σ.withSize.imgWidth σ.withSize.imgHeight := by
  refine ⟨?_, ?_⟩
  · intro h
    obtain ⟨⟨calls, σ'⟩, hcreate⟩ := Option.isSome_iff_exists.mp h
    exact imageFits_of_create hcreate
  · intro hfits
    by_cases hlength : σ.withSize.messages.length > 0
    · have hmessages : σ.messages ≠ [] := by
        rw [← σ.messages_withSize]
        exact List.length_pos_iff.mp hlength
      obtain ⟨messageCalls, σ', hostCalls, hdraw, hhosts⟩ :=
        exists_drawn arrowSize order hcolors σ hmessages
      simp [create, hfits, hlength, hdraw, hhosts]
    · simp only [create, if_neg (not_not.mpr hfits), if_neg hlength]
      rfl

theorem length_endpoints (messages : List SIPMessage) :
    (messages.flatMap endpoints).length = 2 * messages.length := by
  induction messages with
  | nil => rfl
  | cons message messages ih =>
    rw [List.flatMap_cons, List.length_append, ih, List.length_cons]
    show 2 + 2 * messages.length = _
    omega

/-- A message has two hosts at most. -/
theorem card_hostList_le (messages : List SIPMessage) :
    (createHostListWithWeightPosition messages).keys.card ≤
      2 * messages.length := by
  have hkeys : (createHostListWithWeightPosition messages).keys =
      ((messages.flatMap endpoints).map Endpoint.hostAddr).toFinset := by
    ext key
    rw [Finmap.mem_keys, (filled_hostList messages).mem_iff, List.mem_toFinset]
  rw [hkeys, ← length_endpoints, ← List.length_map (f := Endpoint.hostAddr)]
  exact List.toFinset_card_le _

/-- The image of 500 messages is never too large. -/
theorem imageFits_of_length_le (σ : SIPScenario colors)
    (hlength : σ.messages.length ≤ 500) :
    ImageFits σ.withSize.imgWidth σ.withSize.imgHeight := by
  by_cases hmessages : σ.messages = []
  · have hempty : ¬ σ.messages.length > 0 := by simp [hmessages]
    rw [withSize, if_neg hempty]
    show ImageFits 400 200
    decide
  · obtain ⟨-, hwidth, hheight⟩ := withSize_frame σ hmessages
    have hcard := card_hostList_le σ.messages
    rw [← σ.hostList_eq] at hcard
    rw [hwidth, hheight]
    refine ⟨by omega, by omega, ?_⟩
    have hsmall : (150 * (σ.hostList.keys.card : Int) + 80) *
        (26 * σ.messages.length + 60) ≤ 150080 * 13060 :=
      Int.mul_le_mul (by omega) (by omega) (by omega) (by omega)
    exact Int.lt_of_le_of_lt hsmall (by decide)

theorem drawHosts_inside {width height : Int}
    {hostList : Finmap fun _ : String => Int} {calls : List GraphicsCall}
    (h : drawHosts order height hostList = some calls)
    (hcolumns : ∀ key x, hostList.lookup key = some x → Column width x)
    (hwidth : 80 ≤ width) (hheight : 86 ≤ height) :
    ∀ call ∈ calls, call.Inside width height := by
  intro call hcall
  rcases (mem_drawHosts_iff h call).mp hcall with
    rfl | rfl | ⟨key, x, hx, rfl | rfl⟩
  · trivial
  · simp only [GraphicsCall.Inside, InImage, IMAGE_BORDER, HOST_INIT_H]
    omega
  · obtain ⟨hleft, hright⟩ := hcolumns key x hx
    simp only [GraphicsCall.Inside, InImage, HOST_INIT_H, HOST_LINE_OFFSET_W]
    omega
  · obtain ⟨hleft, hright⟩ := hcolumns key x hx
    simp only [GraphicsCall.Inside, InImage, HOST_INIT_H, HOST_LINE_OFFSET_H]
    omega

theorem box_of_getElem? {messageCalls : List GraphicsCall}
    (hdraw : σ.withSize.drawMessages arrowSize = some (messageCalls, σ'))
    {k : Nat} {r : Rectangle} (hr : (boxes messageCalls)[k]? = some r) :
    k < σ.messages.length ∧ r = ⟨20, 32 + 26 * k, σ'.imgWidth - 40, 26⟩ := by
  obtain ⟨-, -, hwidth, -⟩ := drawRows_frame hdraw
  rw [boxes_drawRows hdraw, List.getElem?_map, messages_withSize] at hr
  obtain ⟨k', hk', rfl⟩ := Option.map_eq_some_iff.mp hr
  obtain ⟨hk, rfl⟩ := List.getElem?_eq_some_iff.mp hk'
  refine ⟨by rwa [List.length_range] at hk, ?_⟩
  have hrow : HOST_INIT_H * 2 + HOST_LINE_TO_MSG_BOX_OFFSET_H + 26 * (k : Int) -
      MSG_STEP_H / 2 = 32 + 26 * k := by
    show 45 + 26 * (k : Int) - 26 / 2 = 32 + 26 * k
    omega
  rw [List.getElem_range, msgColorBox, hrow, hwidth]
  rfl

theorem geometry_create (hfits : arrowSize.Fits) (hmessages : σ.messages ≠ [])
    {messageCalls hostCalls : List GraphicsCall}
    (hdraw : σ.withSize.drawMessages arrowSize = some (messageCalls, σ'))
    (hhosts : drawHosts order σ'.imgHeight σ'.hostList = some hostCalls) :
    Geometry σ' messageCalls hostCalls := by
  obtain ⟨hmessages', hhostList, hwidth, hheight⟩ := drawRows_frame hdraw
  obtain ⟨hhostList', hwidth', hheight'⟩ := withSize_frame σ hmessages
  rw [messages_withSize] at hmessages'
  have hpos := List.length_pos_iff.mpr hmessages
  have hfirst : HOST_INIT_H * 2 + HOST_LINE_TO_MSG_BOX_OFFSET_H = 45 := rfl
  have hcolumns : ∀ key x, σ'.hostList.lookup key = some x →
      Column σ'.imgWidth x := by
    intro key x hlookup
    rw [hhostList, hhostList'] at hlookup
    rw [hwidth]
    exact column_of_lookup σ hmessages hlookup
  refine ⟨?_, ?_, ?_, ?_, ?_⟩
  · intro call hcall
    rcases List.mem_append.mp hcall with hcall | hcall
    · rw [hwidth]
      refine drawRows_inside hfits hdraw ?_ (by decide) ?_ call hcall
      · rwa [← hhostList, ← hwidth]
      · rw [messages_withSize, hfirst, hheight, hheight']
        omega
    · exact drawHosts_inside hhosts hcolumns (by omega) (by omega) call hcall
  · rw [boxes_drawRows hdraw, List.length_map, List.length_range, hmessages',
      messages_withSize]
  · intro k r r' hr hr'
    rw [(box_of_getElem? hdraw hr).2, (box_of_getElem? hdraw hr').2]
    refine ⟨rfl, rfl, ?_⟩
    push_cast
    omega
  · intro k l r r' hkl hr hr'
    rw [(box_of_getElem? hdraw hr).2, (box_of_getElem? hdraw hr').2,
      Set.eq_empty_iff_forall_notMem]
    rintro ⟨x, y⟩ ⟨hp, hp'⟩
    simp only [Rectangle.area, Set.mem_ofPred_eq] at hp hp'
    omega
  · intro key hkey
    obtain ⟨x, hx⟩ :=
      Option.isSome_iff_exists.mp (Finmap.lookup_isSome.mpr hkey)
    refine ⟨x, _, _, hx, (mem_drawHosts_iff hhosts _).mpr
      (Or.inr (Or.inr ⟨key, x, hx, Or.inr rfl⟩)), ?_⟩
    intro r hr
    obtain ⟨k, hk⟩ := List.mem_iff_getElem?.mp hr
    obtain ⟨hlt, rfl⟩ := box_of_getElem? hdraw hk
    rw [hheight, hheight']
    simp only [HOST_INIT_H]
    omega

/-- A diagram as it should be: if there are colours everything is drawn, and
`create` fails for images that are too large only; what is drawn is in its
place; and the image has this and nothing else. -/
structure WellDrawn (arrowSize : ArrowSize) (order : KeyOrder)
    (σ : SIPScenario colors) : Prop where
  drawn : colors ≠ [] → ∃ messageCalls σ' hostCalls,
    σ.withSize.drawMessages arrowSize = some (messageCalls, σ') ∧
    drawHosts order σ'.imgHeight σ'.hostList = some hostCalls
  created : colors ≠ [] → ((σ.create arrowSize order).isSome = true ↔
    ImageFits σ.withSize.imgWidth σ.withSize.imgHeight)
  geometry : ∀ messageCalls σ' hostCalls,
    σ.withSize.drawMessages arrowSize = some (messageCalls, σ') →
    drawHosts order σ'.imgHeight σ'.hostList = some hostCalls →
      Geometry σ' messageCalls hostCalls
  parts : ∀ calls σ', σ.create arrowSize order = some (calls, σ') →
    ∃ messageCalls hostCalls,
      σ.withSize.drawMessages arrowSize = some (messageCalls, σ') ∧
      drawHosts order σ'.imgHeight σ'.hostList = some hostCalls ∧
      calls = .clearRect 1 1 (σ'.imgWidth - 2) (σ'.imgHeight - 2) ::
        messageCalls ++ hostCalls

/-- Every diagram with messages, however often it is created. -/
theorem diagram_geometry (order : KeyOrder) (hfits : arrowSize.Fits)
    (σ : SIPScenario colors) (hmessages : σ.messages ≠ []) :
    WellDrawn arrowSize order σ where
  drawn hcolors := exists_drawn arrowSize order hcolors σ hmessages
  created hcolors := create_isSome_iff hcolors σ
  geometry _ _ _ hdraw hhosts := geometry_create hfits hmessages hdraw hhosts
  parts _ _ h := create_eq_some hmessages h

/-- The keys in alphabetical order. -/
def alphabetical : KeyOrder where
  keySet hostList := hostList.keys.sort
  coe_keySet hostList := Finset.sort_eq _ _

/-- One message between two hosts. -/
def optionsDiagram : SIPScenario [⟨0x64ff64⟩] :=
  ofMessages [.request { callID := "a", method := "OPTIONS", time := 7,
                         srcAddress := "10.0.0.2", srcPort := 5061,
                         dstAddress := "10.0.0.1", dstPort := 5060 }]

theorem options_diagram_geometry :
    WellDrawn {} alphabetical optionsDiagram :=
  diagram_geometry alphabetical ⟨by decide, by decide⟩ optionsDiagram
    (by decide)

end SIPScenario

end Sipana
