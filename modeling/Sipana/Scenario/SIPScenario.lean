import Mathlib.Data.Finmap
import Sipana.Lib.FallibleLoop
import Sipana.Protocol.SIPMessage

/-!
# The scenario diagram

`SIPScenario` draws a list of messages as arrows between the lines of their
hosts. What is drawn is the list of calls of `Graphics2D`; strokes, the
background colour and the encoding of the image are left out. Sizes and
positions are integers, as they are while the size of the image does not
overflow an `int`; the image itself is refused earlier (`ImageFits`). The list
`colors` of the class and the properties for the arrows are parameters, and so
is the order in which the keys of a map are visited, which Java does not
specify.
-/

namespace Sipana

/-- A colour, by the 24 bits of its red, green and blue. -/
structure Color where
  rgb : Nat
deriving DecidableEq, Repr

def Color.BLACK : Color := ⟨0⟩

structure Rectangle where
  x : Int
  y : Int
  width : Int
  height : Int
deriving DecidableEq, Repr

/-- The points of a `Polygon`. -/
abbrev Polygon := List (Int × Int)

/-- The calls of `Graphics2D`. -/
inductive GraphicsCall
  | clearRect (x y width height : Int)
  | setColor (color : Color)
  | fill (rectangle : Rectangle)
  | draw (rectangle : Rectangle)
  | drawString (text : String) (x y : Int)
  | drawLine (x₁ y₁ x₂ y₂ : Int)
  | fillPolygon (polygon : Polygon)
  | drawPolygon (polygon : Polygon)
deriving DecidableEq, Repr

/-- `SIPSCENARIO_ARROW_WIDTH` and `SIPSCENARIO_ARROW_HEIGHT`. -/
structure ArrowSize where
  width : Int := 8
  height : Int := 3
deriving DecidableEq, Repr

/-- An order in which the keys of a `HashMap` are visited. -/
structure KeyOrder where
  keySet : Finmap (fun _ : String => Int) → List String
  coe_keySet : ∀ hostList,
    (keySet hostList : Multiset String) = hostList.keys.val

namespace SIPScenario

abbrev IMAGE_BORDER : Int := 20
abbrev HOST_INIT_W : Int := 80
abbrev HOST_INIT_H : Int := 20
abbrev HOST_STEP_W : Int := 150
abbrev HOST_LINE_OFFSET_W : Int := 54
abbrev HOST_LINE_OFFSET_H : Int := 8
abbrev HOST_LINE_TO_MSG_BOX_OFFSET_H : Int := 5
abbrev MSG_STEP_H : Int := 26

/-- The key of a host. -/
def hostAddr (address : String) (port : Int) : String :=
  address ++ ":" ++ toString port

def srcAddr (message : SIPMessage) : String :=
  hostAddr message.base.srcAddress message.base.srcPort

def dstAddr (message : SIPMessage) : String :=
  hostAddr message.base.dstAddress message.base.dstPort

/-- The map `resHostList` with the offset `lineWeigh` of the next host. -/
structure HostList where
  resHostList : Finmap (fun _ : String => Int) := ∅
  lineWeigh : Int := HOST_INIT_W + HOST_LINE_OFFSET_W

/-- A host that has no position yet gets the next one. -/
def HostList.add (hosts : HostList) (addr : String) : HostList :=
  match hosts.resHostList.lookup addr with
  | none =>
    { resHostList := hosts.resHostList.insert addr hosts.lineWeigh
      lineWeigh := hosts.lineWeigh + HOST_STEP_W }
  | some _ => hosts

/-- The body of the loop. -/
def HostList.addMessage (hosts : HostList) (message : SIPMessage) : HostList :=
  (hosts.add (srcAddr message)).add (dstAddr message)

def createHostListWithWeightPosition (messages : List SIPMessage) :
    Finmap fun _ : String => Int :=
  (messages.foldl HostList.addMessage {}).resHostList

end SIPScenario

open SIPScenario in
/-- The fields of the class. `hostList` is set by the constructor, and the
counter of the colours never leaves their list. A Call-ID may be `null`. -/
structure SIPScenario (colors : List Color) where
  messages : List SIPMessage
  currColor : Nat := 0
  imgWidth : Int := 0
  imgHeight : Int := 0
  sessionColors : Finmap (fun _ : Option String => Color) := ∅
  hostList : Finmap (fun _ : String => Int) :=
    createHostListWithWeightPosition messages
  currColor_le : currColor ≤ colors.length := by exact Nat.zero_le _
  hostList_eq : hostList = createHostListWithWeightPosition messages := by rfl

namespace SIPScenario

variable {colors : List Color}

/-- The constructor. -/
def ofMessages (messages : List SIPMessage) : SIPScenario colors := { messages }

variable (arrowSize : ArrowSize) (order : KeyOrder)

/-- The counter starts again when all colours were used. -/
def restartColor (σ : SIPScenario colors) : Nat :=
  if σ.currColor = colors.length then 0 else σ.currColor

/-- There is no result if `colors.get` throws an exception. -/
def getSessionColor (σ : SIPScenario colors) (callId : Option String) :
    Option (Color × SIPScenario colors) :=
  match σ.sessionColors.lookup callId with
  | some color => some (color, σ)
  | none =>
    if h : σ.restartColor < colors.length then
      let color := colors[σ.restartColor]
      some (color, { σ with
        currColor := σ.restartColor + 1
        currColor_le := h
        sessionColors := σ.sessionColors.insert callId color })
    else none

theorem getSessionColor_isSome (hcolors : colors ≠ [])
    (σ : SIPScenario colors) (callId : Option String) :
    (σ.getSessionColor callId).isSome = true := by
  have hlt : σ.restartColor < colors.length := by
    unfold restartColor
    split
    · exact List.length_pos_iff.mpr hcolors
    · next hend => exact Nat.lt_of_le_of_ne σ.currColor_le hend
  unfold getSessionColor
  split
  · rfl
  · rw [dif_pos hlt]
    rfl

/-! ## Messages -/

def messageText : SIPMessage → String
  | .request request => request.method
  | .response response =>
    toString response.statusCode ++ " " ++ response.reasonPhrase

/-- The row of a message. -/
def msgColorBox (msgBoxWidth h : Int) : Rectangle where
  x := IMAGE_BORDER
  y := h - MSG_STEP_H / 2
  width := msgBoxWidth
  height := MSG_STEP_H

def arrow (srcWPos dstWPos h : Int) : Polygon :=
  let wInc := if dstWPos > srcWPos then -arrowSize.width else arrowSize.width
  [(dstWPos, h), (dstWPos + wInc, h - arrowSize.height),
    (dstWPos + wInc, h + arrowSize.height)]

def textWPos (srcWPos dstWPos : Int) : Int :=
  let stepCenter := HOST_STEP_W / 2
  let textWCenter :=
    dstWPos + if dstWPos > srcWPos then -stepCenter else stepCenter
  textWCenter - HOST_STEP_W / 4

/-- What is drawn for one message. -/
def messageCalls (msgBoxWidth h startTime srcWPos dstWPos : Int)
    (msgBkgrdColor : Color) (message : SIPMessage) : List GraphicsCall :=
  let msgColorBox := msgColorBox msgBoxWidth h
  let relativeTime := message.time - startTime
  let arrow := arrow arrowSize srcWPos dstWPos h
  [.setColor msgBkgrdColor, .fill msgColorBox, .draw msgColorBox,
    .setColor Color.BLACK,
    .drawString (toString relativeTime) IMAGE_BORDER (h + 5),
    .drawLine srcWPos h dstWPos h, .fillPolygon arrow, .drawPolygon arrow,
    .drawString (messageText message) (textWPos srcWPos dstWPos) (h - 2)]

/-- The loop of `drawMessages`. There is no result if a host is not found. -/
def drawRows (σ : SIPScenario colors) (startTime : Option Int) (h : Int) :
    List SIPMessage → Option (List GraphicsCall × SIPScenario colors)
  | [] => some ([], σ)
  | message :: messages => do
    let srcWPos ← σ.hostList.lookup (srcAddr message)
    let dstWPos ← σ.hostList.lookup (dstAddr message)
    let (msgBkgrdColor, σ) ← σ.getSessionColor (some message.callID)
    let startTime := startTime.getD message.time
    let row := messageCalls arrowSize (σ.imgWidth - IMAGE_BORDER * 2) h
      startTime srcWPos dstWPos msgBkgrdColor message
    let (rows, σ) ←
      σ.drawRows (some startTime) (h + MSG_STEP_H) messages
    return (row ++ rows, σ)

def drawMessages (σ : SIPScenario colors) :
    Option (List GraphicsCall × SIPScenario colors) :=
  σ.drawRows arrowSize none
    (HOST_INIT_H * 2 + HOST_LINE_TO_MSG_BOX_OFFSET_H) σ.messages

/-! ## Hosts -/

/-- The line of a host and its name. -/
def hostCalls (height : Int) (hostList : Finmap fun _ : String => Int)
    (hostAddr : String) : Option (List GraphicsCall) :=
  (hostList.lookup hostAddr).map fun lineWeight =>
    [.drawString hostAddr (lineWeight - HOST_LINE_OFFSET_W) HOST_INIT_H,
      .drawLine lineWeight (HOST_INIT_H + HOST_LINE_OFFSET_H)
        lineWeight (height - HOST_INIT_H)]

def drawHosts (height : Int) (hostList : Finmap fun _ : String => Int) :
    Option (List GraphicsCall) :=
  ((order.keySet hostList).mapM (hostCalls height hostList)).map fun hosts =>
    [.setColor Color.BLACK, .drawString "Delta" IMAGE_BORDER HOST_INIT_H] ++
      hosts.flatten

/-- The size of the image. -/
def withSize (σ : SIPScenario colors) : SIPScenario colors :=
  if σ.messages.length > 0 then
    { σ with
      imgWidth := HOST_STEP_W * σ.hostList.keys.card + HOST_INIT_W
      imgHeight := MSG_STEP_H * σ.messages.length + IMAGE_BORDER * 3 }
  else { σ with imgWidth := 400, imgHeight := 200 }

/-- `new BufferedImage(width, height, TYPE_INT_RGB)` throws no exception. -/
def ImageFits (width height : Int) : Prop :=
  0 < width ∧ 0 < height ∧ width * height < 2 ^ 31 - 1

instance (width height : Int) : Decidable (ImageFits width height) :=
  inferInstanceAs (Decidable (_ ∧ _))

theorem messages_withSize (σ : SIPScenario colors) :
    σ.withSize.messages = σ.messages := by
  unfold withSize
  split <;> rfl

/-- `create`, up to writing the image. There is no result if the image is too
large. -/
def create (σ : SIPScenario colors) :
    Option (List GraphicsCall × SIPScenario colors) :=
  let σ := σ.withSize
  let clear := .clearRect 1 1 (σ.imgWidth - 2) (σ.imgHeight - 2)
  if ¬ ImageFits σ.imgWidth σ.imgHeight then none
  else if σ.messages.length > 0 then do
    let (messageCalls, σ) ← σ.drawMessages arrowSize
    let hostCalls ← drawHosts order σ.imgHeight σ.hostList
    return (clear :: messageCalls ++ hostCalls, σ)
  else
    some ([clear, .setColor Color.BLACK,
      .drawString "Empty message list. Unable to draw SIP scenario." 50
        (σ.imgHeight / 2)], σ)

/-! ## What is drawn for the hosts -/

variable {order}

theorem mem_keySet {hostList : Finmap fun _ : String => Int} {key : String} :
    key ∈ order.keySet hostList ↔ key ∈ hostList := by
  rw [← Multiset.mem_coe, order.coe_keySet, Finset.mem_val, Finmap.mem_keys]

theorem drawHosts_isSome (height : Int)
    (hostList : Finmap fun _ : String => Int) :
    (drawHosts order height hostList).isSome = true := by
  rw [drawHosts, Option.isSome_map]
  apply FallibleLoop.mapM_isSome
  intro key hkey
  rw [hostCalls, Option.isSome_map, Finmap.lookup_isSome]
  exact mem_keySet.mp hkey

/-- The heading, and the name and the line of every host. -/
theorem mem_drawHosts_iff {height : Int}
    {hostList : Finmap fun _ : String => Int} {calls : List GraphicsCall}
    (h : drawHosts order height hostList = some calls) (call : GraphicsCall) :
    call ∈ calls ↔ call = .setColor Color.BLACK ∨
      call = .drawString "Delta" IMAGE_BORDER HOST_INIT_H ∨
      ∃ key place, hostList.lookup key = some place ∧
        (call = .drawString key (place - HOST_LINE_OFFSET_W) HOST_INIT_H ∨
          call = .drawLine place (HOST_INIT_H + HOST_LINE_OFFSET_H) place
            (height - HOST_INIT_H)) := by
  obtain ⟨hosts, hmap, rfl⟩ := Option.map_eq_some_iff.mp h
  simp only [List.mem_append, List.mem_cons, List.not_mem_nil, or_false,
    List.mem_flatten, or_assoc]
  refine or_congr_right (or_congr_right ⟨?_, ?_⟩)
  · intro hcall
    obtain ⟨part, hpart, hcall⟩ := hcall
    obtain ⟨key, -, hkey⟩ := (FallibleLoop.mem_mapM_iff hmap part).mp hpart
    obtain ⟨place, hplace, rfl⟩ := Option.map_eq_some_iff.mp hkey
    exact ⟨key, place, hplace, by simpa using hcall⟩
  · intro hcall
    obtain ⟨key, place, hplace, hcall⟩ := hcall
    have hkey : key ∈ hostList :=
      Finmap.lookup_isSome.mp (by rw [hplace]; rfl)
    have hpart : hostCalls height hostList key = some
        [.drawString key (place - HOST_LINE_OFFSET_W) HOST_INIT_H,
          .drawLine place (HOST_INIT_H + HOST_LINE_OFFSET_H) place
            (height - HOST_INIT_H)] := by
      rw [hostCalls, hplace]
      rfl
    have hin := (FallibleLoop.mem_mapM_iff hmap _).mpr
      ⟨key, mem_keySet.mpr hkey, hpart⟩
    exact ⟨_, hin, by simpa using hcall⟩

/-! ## What the loops do -/

variable {arrowSize} {σ σ' : SIPScenario colors}

/-- The fields that no call of `getSessionColor` changes. -/
theorem getSessionColor_frame {callId : Option String} {color : Color}
    (h : σ.getSessionColor callId = some (color, σ')) :
    σ'.messages = σ.messages ∧ σ'.hostList = σ.hostList ∧
      σ'.imgWidth = σ.imgWidth ∧ σ'.imgHeight = σ.imgHeight := by
  unfold getSessionColor at h
  split at h
  · obtain ⟨-, rfl⟩ := Prod.mk.inj (Option.some.inj h)
    exact ⟨rfl, rfl, rfl, rfl⟩
  · split at h
    · obtain ⟨-, rfl⟩ := Prod.mk.inj (Option.some.inj h)
      exact ⟨rfl, rfl, rfl, rfl⟩
    · exact absurd h nofun

theorem drawRows_cons {startTime : Option Int} {h : Int} {message : SIPMessage}
    {messages : List SIPMessage} {calls : List GraphicsCall}
    (hdraw : σ.drawRows arrowSize startTime h (message :: messages) =
      some (calls, σ')) :
    ∃ srcWPos dstWPos color τ rows,
      σ.hostList.lookup (srcAddr message) = some srcWPos ∧
      σ.hostList.lookup (dstAddr message) = some dstWPos ∧
      σ.getSessionColor (some message.callID) = some (color, τ) ∧
      τ.drawRows arrowSize (some (startTime.getD message.time))
        (h + MSG_STEP_H) messages = some (rows, σ') ∧
      calls = messageCalls arrowSize (τ.imgWidth - IMAGE_BORDER * 2) h
        (startTime.getD message.time) srcWPos dstWPos color message ++
          rows := by
  simp only [drawRows, Option.bind_eq_bind, Option.bind_eq_some_iff] at hdraw
  obtain ⟨srcWPos, hsrc, dstWPos, hdst, ⟨color, τ⟩, hcolor, ⟨rows, τ'⟩, hrows,
    heq⟩ := hdraw
  obtain ⟨rfl, rfl⟩ := Prod.mk.inj (Option.some.inj heq)
  exact ⟨srcWPos, dstWPos, color, τ, rows, hsrc, hdst, hcolor, hrows, rfl⟩

theorem drawRows_frame {startTime : Option Int} {h : Int}
    {messages : List SIPMessage} {calls : List GraphicsCall}
    (hdraw : σ.drawRows arrowSize startTime h messages = some (calls, σ')) :
    σ'.messages = σ.messages ∧ σ'.hostList = σ.hostList ∧
      σ'.imgWidth = σ.imgWidth ∧ σ'.imgHeight = σ.imgHeight := by
  induction messages generalizing σ startTime h calls with
  | nil =>
    obtain ⟨-, rfl⟩ := Prod.mk.inj (Option.some.inj hdraw)
    exact ⟨rfl, rfl, rfl, rfl⟩
  | cons message messages ih =>
    obtain ⟨_, _, _, τ, _, -, -, hcolor, hrows, -⟩ := drawRows_cons hdraw
    obtain ⟨hmessages, hhosts, hwidth, hheight⟩ := getSessionColor_frame hcolor
    obtain ⟨hmessages', hhosts', hwidth', hheight'⟩ := ih hrows
    exact ⟨hmessages'.trans hmessages, hhosts'.trans hhosts,
      hwidth'.trans hwidth, hheight'.trans hheight⟩

/-- The colours do not run out, so a row is drawn if its hosts are found. -/
theorem drawRows_isSome (hcolors : colors ≠ []) {messages : List SIPMessage}
    (hfound : ∀ message ∈ messages,
      (σ.hostList.lookup (srcAddr message)).isSome = true ∧
        (σ.hostList.lookup (dstAddr message)).isSome = true)
    (startTime : Option Int) (h : Int) :
    (σ.drawRows arrowSize startTime h messages).isSome = true := by
  induction messages generalizing σ startTime h with
  | nil => rfl
  | cons message messages ih =>
    obtain ⟨hsrc, hdst⟩ := hfound message List.mem_cons_self
    obtain ⟨srcWPos, hsrc⟩ := Option.isSome_iff_exists.mp hsrc
    obtain ⟨dstWPos, hdst⟩ := Option.isSome_iff_exists.mp hdst
    obtain ⟨⟨color, τ⟩, hcolor⟩ :=
      Option.isSome_iff_exists.mp (σ.getSessionColor_isSome hcolors
        (some message.callID))
    have hhosts := (getSessionColor_frame hcolor).2.1
    have hrest := ih (σ := τ) (by
      rw [hhosts]
      exact fun m hm => hfound m (List.mem_cons_of_mem _ hm))
      (some (startTime.getD message.time)) (h + MSG_STEP_H)
    obtain ⟨⟨rows, τ'⟩, hrows⟩ := Option.isSome_iff_exists.mp hrest
    simp [drawRows, hsrc, hdst, hcolor, hrows]

theorem imageFits_of_create {calls : List GraphicsCall}
    (h : σ.create arrowSize order = some (calls, σ')) :
    ImageFits σ.withSize.imgWidth σ.withSize.imgHeight := by
  by_contra hlarge
  simp only [create, if_pos hlarge] at h
  exact absurd h nofun

/-- The parts of a diagram. -/
theorem create_eq_some {calls : List GraphicsCall}
    (hmessages : σ.messages ≠ [])
    (h : σ.create arrowSize order = some (calls, σ')) :
    ∃ messageCalls hostCalls,
      σ.withSize.drawMessages arrowSize = some (messageCalls, σ') ∧
      drawHosts order σ'.imgHeight σ'.hostList = some hostCalls ∧
      calls = .clearRect 1 1 (σ'.imgWidth - 2) (σ'.imgHeight - 2) ::
        messageCalls ++ hostCalls := by
  have hlength : σ.withSize.messages.length > 0 := by
    rw [messages_withSize]
    exact List.length_pos_iff.mpr hmessages
  have hfits := imageFits_of_create h
  simp only [create, if_neg (not_not.mpr hfits), hlength, if_true,
    Option.bind_eq_bind, Option.bind_eq_some_iff] at h
  obtain ⟨⟨messageCalls, τ⟩, hdraw, hostCalls, hhosts, heq⟩ := h
  obtain ⟨rfl, rfl⟩ := Prod.mk.inj (Option.some.inj heq)
  obtain ⟨-, -, hwidth, hheight⟩ := drawRows_frame hdraw
  refine ⟨messageCalls, hostCalls, hdraw, hhosts, ?_⟩
  rw [hwidth, hheight]

end SIPScenario

end Sipana
