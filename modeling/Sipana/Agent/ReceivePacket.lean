import Mathlib.Data.Int.Init
import Sipana.Agent.BatchTiming
import Sipana.Agent.OnPacket
import Sipana.Agent.Timing

/-!
# From the wire to the handler

`receivePacket` of `CaptureSessionKFujii` is called by the capture library with
every packet that passes the filter. It makes a `Packet` of every UDP datagram
and TCP segment and gives it to the listener, which is the handler. Nothing is
reassembled: each segment and each fragment is read on its own.

`session_between_packets` takes the other modules back to the wire. A session
that reaches the sender is what happened between two packets: it has the
messages of its call in the packets between them, begins and ends at their
times, and each of its milestones is the time of such a message. If the clock
of the library does not go back, all of them lie between the two packets.
-/

namespace Sipana

/-! ## What the library delivers -/

namespace Jpcap

/-- What a datagram or a segment carries. -/
structure Payload where
  srcPort : Int
  dstPort : Int
  data : List UInt8
deriving DecidableEq, Repr

inductive Transport
  | udp (payload : Payload)
  | tcp (payload : Payload)
  | other
deriving DecidableEq, Repr

/-- `jpcap.packet.IPPacket`, with the addresses as `getHostAddress` writes
them. -/
structure IPPacket where
  srcIp : String
  dstIp : String
  sec : Int
  usec : Int
  transport : Transport
deriving DecidableEq, Repr

inductive Packet
  | ipPacket (packet : IPPacket)
  | other
deriving DecidableEq, Repr

end Jpcap

/-- The result of an operation on `long`. -/
def toLong (n : Int) : Int := n.bmod (2 ^ 64)

/-- `CaptureException`, with its two messages. -/
inductive CaptureException
  | unknownTransport
  | unknownPacket
deriving DecidableEq, Repr

/-- The parser, and the default charset of the platform. -/
structure CaptureSessionKFujii where
  factory : SIPFactory
  charset : List UInt8 → String

namespace CaptureSessionKFujii

variable (K : CaptureSessionKFujii)

def milliSec (packet : Jpcap.IPPacket) : Int :=
  toLong (toLong (packet.sec * 1000) + packet.usec.tdiv 1000)

/-- The part of `receivePacket` that fills in the packet. -/
def createPacket : Jpcap.Packet → Except CaptureException Packet
  | .ipPacket ipPacket =>
    let packet (payload : Jpcap.Payload) : Packet :=
      { data := K.charset payload.data
        srcIPAddr := ipPacket.srcIp
        srcIPPort := payload.srcPort
        dstIPAddr := ipPacket.dstIp
        dstIPPort := payload.dstPort
        date := milliSec ipPacket }
    match ipPacket.transport with
    | .udp payload => .ok (packet payload)
    | .tcp payload => .ok (packet payload)
    | .other => .error .unknownTransport
  | .other => .error .unknownPacket

/-- The listener is the handler. -/
def receivePacket (result : SendResult) (σ : SIPHandler)
    (jpcapPacket : Jpcap.Packet) : SIPHandler :=
  match K.createPacket jpcapPacket with
  | .ok packet => SIPHandler.onPacket K.factory result σ packet
  -- the exception is caught and logged
  | .error _ => σ

/-- The handler as a machine on what the library delivers. -/
def machine : Machine SIPHandler (Jpcap.Packet × SendResult) :=
  ⟨SIPHandler.new, fun σ p => K.receivePacket p.2 σ p.1⟩

/-! ## The messages on the wire -/

/-- The message of a packet, if one comes through. -/
def message? (jpcapPacket : Jpcap.Packet) : Option SIPMessage :=
  match K.createPacket jpcapPacket with
  | .ok packet =>
    match K.factory.createMessageFrom packet.data with
    | .ok (some message) => some (packet.stamp message)
    | .ok none | .error _ => none
  | .error _ => none

def call? (p : Jpcap.Packet × SendResult) : Option SIPHandler.Call :=
  (K.message? p.1).map fun message => ⟨message, p.2⟩

theorem receivePacket_eq (σ : SIPHandler) (p : Jpcap.Packet × SendResult) :
    K.receivePacket p.2 σ p.1 = ((K.call? p).map σ.process).getD σ := by
  unfold receivePacket call? message?
  cases K.createPacket p.1 with
  | error e => rfl
  | ok packet =>
    show SIPHandler.onPacket K.factory p.2 σ packet = _
    unfold SIPHandler.onPacket
    simp only
    cases K.factory.createMessageFrom packet.data with
    | error e => rfl
    | ok message => cases message <;> rfl

/-- The packets of which no message comes through leave no trace. -/
theorem machine_run (stream : List (Jpcap.Packet × SendResult)) :
    K.machine.run stream = SIPHandler.run (stream.filterMap K.call?) := by
  induction stream using List.reverseRecOn with
  | nil => rfl
  | append_singleton stream p ih =>
    rw [Machine.run_snoc, ih, List.filterMap_append]
    show K.receivePacket p.2 _ p.1 = _
    rw [receivePacket_eq]
    cases hcall : K.call? p with
    | none =>
      rw [List.filterMap_cons_none hcall, List.filterMap_nil, List.append_nil]
      rfl
    | some call =>
      rw [List.filterMap_cons_some hcall, List.filterMap_nil]
      exact (SIPHandler.run_snoc _ call).symm

/-- The messages the handler is given are those on the wire. -/
theorem map_message_calls (stream : List (Jpcap.Packet × SendResult)) :
    (stream.filterMap K.call?).map SIPHandler.Call.message =
      (stream.map Prod.fst).filterMap K.message? := by
  rw [List.map_filterMap, List.filterMap_map]
  refine List.filterMap_congr fun p _ => ?_
  show (K.call? p).map SIPHandler.Call.message = K.message? p.1
  unfold call?
  cases K.message? p.1 <;> rfl

/-- A message carries the time and the addresses of its packet. -/
theorem message?_eq_some {jpcapPacket : Jpcap.Packet} {m : SIPMessage}
    (h : K.message? jpcapPacket = some m) :
    ∃ packet, jpcapPacket = .ipPacket packet ∧ m.time = milliSec packet ∧
      m.base.srcAddress = packet.srcIp ∧ m.base.dstAddress = packet.dstIp := by
  unfold message? createPacket at h
  cases jpcapPacket with
  | other => exact absurd h nofun
  | ipPacket packet =>
    refine ⟨packet, rfl, ?_⟩
    cases htransport : packet.transport with
    | other =>
      simp only [htransport] at h
      exact absurd h nofun
    | udp payload | tcp payload =>
      simp only [htransport] at h
      split at h
      · obtain rfl := Option.some.inj h
        simp [Packet.stamp, SIPMessage.time]
      · exact absurd h nofun
      · exact absurd h nofun

end CaptureSessionKFujii

/-! ## Live and closed sessions -/

namespace SIPSession

theorem absorb_startTime (s : SIPSession) (m : SIPMessage) :
    (s.absorb m).startTime = s.startTime := by
  cases m with
  | request q =>
    by_cases hkind : q.kind = .disconnect
    · rw [s.absorb_disconnect hkind]
      rfl
    · rw [s.absorb_request hkind]
      rfl
  | response p =>
    rw [s.absorb_response, settle_startTime, noteResponse_startTime]
    rfl

/-- A session ends with the response that closes it. -/
theorem settle_endTime (s : SIPSession) {k : ResponseKind} (t : Int)
    (hk : k.closes = true) : (s.settle k t).endTime = t := by
  cases k with
  | ringing | inviteOK | passive => exact absurd hk nofun
  | cancelOK | byeOK | otherOK | failure => rfl

/-- Every milestone that is set lies between the start and the end. -/
structure Spanned (s : SIPSession) : Prop where
  duration : 0 < s.startTime ∧ s.startTime ≤ s.endTime
  milestones : ∀ t ∈ [s.firstResponseTime, s.setupTime, s.establishedTime,
    s.disconnectionStart], t ≠ 0 → s.startTime ≤ t ∧ t ≤ s.endTime

end SIPSession

/-! ## Where the milestones are from -/

/-- A time that is set is that of a message of `seg` that meets `P`. -/
def TimeOf (P : SIPMessage → Bool) (seg : List SIPMessage) (t : Int) : Prop :=
  t ≠ 0 → ∃ m ∈ seg, P m = true ∧ m.time = t

/-- The milestones of `s` are the times of messages of `seg`. -/
structure Dated (seg : List SIPMessage) (s : SIPSession) : Prop where
  firstResponse : TimeOf SIPMessage.isResponse seg s.firstResponseTime
  -- a response that closes the session also writes the setup time
  setup : TimeOf (fun m => m.setsUp || m.closes) seg s.setupTime
  established : TimeOf SIPMessage.answers seg s.establishedTime
  disconnection : TimeOf SIPMessage.disconnects seg s.disconnectionStart

namespace Dated

variable {P : SIPMessage → Bool} {seg : List SIPMessage} {s : SIPSession}

theorem timeOf_snoc {t : Int} (h : TimeOf P seg t) (m : SIPMessage) :
    TimeOf P (seg ++ [m]) t := by
  intro ht
  obtain ⟨x, hx, hP, htime⟩ := h ht
  exact ⟨x, List.mem_append_left _ hx, hP, htime⟩

theorem timeOf_last {m : SIPMessage} (hP : P m = true) :
    TimeOf P (seg ++ [m]) m.time :=
  fun _ => ⟨m, by simp, hP, rfl⟩

theorem ofRequest (q : SIPRequest) :
    Dated [.request q] (SIPSession.ofRequest q) := by
  constructor <;> exact fun h => absurd rfl h

theorem addMessage (h : Dated seg s) (m : SIPMessage) :
    Dated (seg ++ [m]) (s.addMessage m) where
  firstResponse := timeOf_snoc h.firstResponse m
  setup := timeOf_snoc h.setup m
  established := timeOf_snoc h.established m
  disconnection := timeOf_snoc h.disconnection m

theorem noteResponse {p : SIPResponse}
    (h : Dated (seg ++ [.response p]) s) :
    Dated (seg ++ [.response p]) (s.noteResponse p.time) := by
  unfold SIPSession.noteResponse
  split
  · exact { h with firstResponse := timeOf_last rfl }
  · exact h

/-- A milestone is written with the message that marks it at the end. -/
theorem settle {p : SIPResponse} (h : Dated (seg ++ [.response p]) s) :
    Dated (seg ++ [.response p]) (s.settle p.kind p.time) := by
  have hsetup : p.kind = .ringing ∨ p.kind = .inviteOK ∨
      p.kind.closes = true →
      TimeOf (fun m => m.setsUp || m.closes) (seg ++ [.response p])
        p.time := by
    intro hkind
    refine timeOf_last (m := .response p) ?_
    rw [Bool.or_eq_true, SIPResponse.setsUp_iff, or_assoc]
    exact hkind
  cases hkind : p.kind with
  | ringing =>
    unfold SIPSession.settle
    simp only
    split
    · exact { h with setup := hsetup (Or.inl hkind) }
    · exact h
  | inviteOK =>
    have hanswer : TimeOf SIPMessage.answers (seg ++ [.response p]) p.time :=
      timeOf_last (SIPResponse.answers_iff.mpr hkind)
    unfold SIPSession.settle
    simp only
    split
    · exact { h with
        setup := hsetup (Or.inr (Or.inl hkind)), established := hanswer }
    · exact { h with established := hanswer }
    · exact h
  | otherOK | failure =>
    exact { h with setup := hsetup (by simp [hkind, ResponseKind.closes]) }
  | cancelOK | byeOK => exact { h with }
  | passive => exact h

theorem absorb (h : Dated seg s) (m : SIPMessage) :
    Dated (seg ++ [m]) (s.absorb m) := by
  cases m with
  | request q =>
    by_cases hkind : q.kind = .disconnect
    · rw [s.absorb_disconnect hkind]
      exact { h.addMessage (.request q) with
        disconnection := timeOf_last (SIPRequest.disconnects_iff.mpr hkind) }
    · rw [s.absorb_request hkind]
      exact h.addMessage _
  | response p => exact (h.addMessage (.response p)).noteResponse.settle

end Dated

/-- However a session is closed, nothing in it is later than that. -/
theorem Ordered.spanned_absorb {s : SIPSession} {p : SIPResponse}
    (h : Ordered p.time s) (ht : 0 < p.time) (hclose : p.kind.closes = true) :
    (s.absorb (.response p)).Spanned := by
  obtain ⟨hnote, hne⟩ := (h.addMessage (.response p)).noteResponse ht
  rw [s.absorb_response]
  generalize (s.addMessage (.response p)).noteResponse p.time = s' at hnote hne
  obtain ⟨hstart, hfirst, hsetup, hest, hdisc, -, -⟩ := hnote
  cases hkind : p.kind with
  | ringing | inviteOK | passive =>
    rw [hkind] at hclose
    exact absurd hclose nofun
  | cancelOK | byeOK | otherOK | failure =>
    refine ⟨hstart, ?_⟩
    simp only [SIPSession.settle, List.forall_mem_cons, List.not_mem_nil,
      false_implies, implies_true, and_true]
    omega

namespace SIPHandler

/-- A live session was opened by a request, begins at its time and has the
messages of its Call-ID since. -/
theorem live_since (calls : List Call) (c : String) (r : SessionRef)
    (h : (run calls).getSession c = some r) :
    ∃ pre call mid, calls = pre ++ call :: mid ∧
      (∃ q, call.message = .request q ∧
        q.callID = ((run calls).heap r).callId) ∧
      ((run calls).heap r).startTime = call.message.time ∧
      ((run calls).heap r).messages =
        ((call :: mid).map Call.message).filter
          (·.callID = ((run calls).heap r).callId) := by
  refine live_induction (fun calls _ s => ∃ pre call mid,
      calls = pre ++ call :: mid ∧
      (∃ q, call.message = .request q ∧ q.callID = s.callId) ∧
      s.startTime = call.message.time ∧
      s.messages = ((call :: mid).map Call.message).filter
        (·.callID = s.callId)) ?_ ?_ ?_ calls c r h
  · intro calls call q hm _ _
    refine ⟨calls, call, [], rfl, ⟨q, hm, rfl⟩, ?_, ?_⟩
    · rw [hm]
      rfl
    · simp [hm, SIPSession.ofRequest]
  · intro calls call r s hlive _ hid _ _
    obtain ⟨pre, first, mid, rfl, hreq, hstart, hmsgs⟩ := hlive
    refine ⟨pre, first, mid ++ [call], by simp, ?_, ?_, ?_⟩
    · rwa [SIPSession.absorb_callId]
    · rwa [SIPSession.absorb_startTime]
    · rw [SIPSession.absorb_callId, SIPSession.absorb_messages, hmsgs,
        ← List.cons_append, List.map_append, List.filter_append]
      simp [hid]
  · intro calls call r s hlive hid
    obtain ⟨pre, first, mid, rfl, hreq, hstart, hmsgs⟩ := hlive
    refine ⟨pre, first, mid ++ [call], by simp, hreq, hstart, ?_⟩
    rw [hmsgs, ← List.cons_append, List.map_append, List.filter_append]
    simp [hid]

/-- The milestones of a live session are the times of its messages. -/
theorem dated_of_live (calls : List Call) (c : String) (r : SessionRef)
    (h : (run calls).getSession c = some r) :
    Dated ((run calls).heap r).messages ((run calls).heap r) := by
  refine live_induction (fun _ _ s => Dated s.messages s) ?_ ?_ ?_ calls c r h
  · intro _ _ q _ _ _
    exact Dated.ofRequest q
  · intro _ call _ s ih _ _ _ _
    rw [SIPSession.absorb_messages]
    exact ih.absorb call.message
  · intro _ _ _ _ ih _
    exact ih

/-- A session that is handed over is what happened between two calls. -/
theorem sent_between {calls : List Call} {r : SessionRef} {s : SIPSession}
    (h : .session r s ∈ (run calls).sent) :
    ∃ pre first mid last post,
      calls = (pre ++ first :: mid) ++ last :: post ∧
      (∃ q, first.message = .request q ∧ q.callID = s.callId) ∧
      (∃ p, last.message = .response p ∧ p.callID = s.callId) ∧
      s.startTime = first.message.time ∧ s.endTime = last.message.time ∧
      s.messages = ((first :: (mid ++ [last])).map Call.message).filter
        (·.callID = s.callId) ∧
      Dated s.messages s := by
  obtain ⟨before, last, post, rfl, hmem⟩ := (mem_sent_iff calls _).mp h
  obtain ⟨hlive, hclose, hs⟩ := session_mem_handOver.mp hmem
  obtain ⟨pre, first, mid, hcut, hreq, hstart, hmsgs⟩ :=
    live_since before _ r hlive
  have hkey : ((run before).heap r).callId = s.callId := by
    rw [hs, SIPSession.absorb_callId]
  have hid : last.message.callID = s.callId :=
    ((wf_run before).keyed _ _ hlive).symm.trans hkey
  rw [hkey] at hreq hmsgs
  refine ⟨pre, first, mid, last, post, by rw [hcut], hreq, ?_, ?_, ?_, ?_, ?_⟩
  · cases hlast : last.message with
    | request q => simp [hlast, SIPMessage.closes] at hclose
    | response p =>
      rw [hlast] at hid
      exact ⟨p, rfl, hid⟩
  · rw [hs, SIPSession.absorb_startTime, hstart]
  · cases hlast : last.message with
    | request q => simp [hlast, SIPMessage.closes] at hclose
    | response p =>
      rw [hlast] at hclose
      rw [hs, hlast, SIPSession.absorb_response]
      exact SIPSession.settle_endTime _ _ hclose
  · rw [hs, SIPSession.absorb_messages, hmsgs, SIPSession.absorb_callId, hkey,
      ← List.cons_append, List.map_append, List.filter_append]
    simp [hid]
  · rw [hs, SIPSession.absorb_messages]
    exact (dated_of_live before _ r hlive).absorb last.message

/-- With times that do not go back every session that is handed over has its
milestones between its start and its end. -/
theorem spanned_of_sent {calls : List Call} (h : Timed calls)
    {r : SessionRef} {s : SIPSession} (hs : .session r s ∈ (run calls).sent) :
    s.Spanned := by
  obtain ⟨pre, call, post, rfl, hmem⟩ := (mem_sent_iff calls _).mp hs
  obtain ⟨hlive, hclose, rfl⟩ := session_mem_handOver.mp hmem
  obtain ⟨hpos, hle⟩ := h.next
  have hordered := ordered_of_live h.of_append hle hlive
  cases hm : call.message with
  | request q => simp [hm, SIPMessage.closes] at hclose
  | response p =>
    rw [hm] at hpos hordered hclose
    exact hordered.spanned_absorb hpos hclose

end SIPHandler

/-! ## Between two packets -/

namespace Jpcap

/-- The packets from one to another in a stream. -/
structure Window where
  before : List Packet
  opening : Packet
  between : List Packet
  closing : Packet
  after : List Packet

namespace Window

def packets (w : Window) : List Packet :=
  w.opening :: (w.between ++ [w.closing])

def stream (w : Window) : List Packet := w.before ++ w.packets ++ w.after

end Window

/-- What the clock of the library writes: a number of seconds that leaves room
for milliseconds, and less than a second of microseconds. -/
structure IPPacket.Stamped (packet : IPPacket) : Prop where
  sec : 0 < packet.sec ∧ packet.sec ≤ 2 ^ 53
  usec : 0 ≤ packet.usec ∧ packet.usec < 1000000

/-- The time in microseconds. -/
def IPPacket.micros (packet : IPPacket) : Int :=
  packet.sec * 1000000 + packet.usec

def Packet.ipPacket? : Packet → Option IPPacket
  | .ipPacket packet => some packet
  | .other => none

/-- The clock of the library does not go back. -/
structure Chronological (stream : List Packet) : Prop where
  stamped : ∀ packet, .ipPacket packet ∈ stream → packet.Stamped
  ascending : (stream.filterMap Packet.ipPacket?).Pairwise
    fun a b => a.micros ≤ b.micros

end Jpcap

namespace CaptureSessionKFujii

open Jpcap

variable (K : CaptureSessionKFujii)

/-- `s` is what the window shows of its call. -/
structure Shows (w : Window) (s : SIPSession) : Prop where
  request : ∃ q, K.message? w.opening = some (.request q) ∧
    q.callID = s.callId ∧ s.startTime = q.time
  response : ∃ p, K.message? w.closing = some (.response p) ∧
    p.callID = s.callId ∧ s.endTime = p.time
  messages : s.messages =
    (w.packets.filterMap K.message?).filter (·.callID = s.callId)
  milestones :
    Dated ((w.packets.filterMap K.message?).filter (·.callID = s.callId)) s

/-- A cut of what comes through is a cut of the stream. -/
theorem window_of_calls {stream : List (Jpcap.Packet × SendResult)}
    {pre mid post : List SIPHandler.Call} {first last : SIPHandler.Call}
    (h : stream.filterMap K.call? = (pre ++ first :: mid) ++ last :: post) :
    ∃ w : Window, w.stream = stream.map Prod.fst ∧
      K.message? w.opening = some first.message ∧
      K.message? w.closing = some last.message ∧
      w.packets.filterMap K.message? =
        (first :: (mid ++ [last])).map SIPHandler.Call.message := by
  have hmessage : ∀ {p : Jpcap.Packet × SendResult} {call : SIPHandler.Call},
      K.call? p = some call → K.message? p.1 = some call.message := by
    intro p call hp
    obtain ⟨m, hm, rfl⟩ := Option.map_eq_some_iff.mp hp
    exact hm
  obtain ⟨front, back, rfl, hfront, hback⟩ := List.filterMap_eq_append_iff.mp h
  obtain ⟨before, rest, rfl, -, hrest⟩ := List.filterMap_eq_append_iff.mp hfront
  -- what comes before an accepted packet and is dropped counts as before
  obtain ⟨skipped, opening, between, rfl, -, hopening, hbetween⟩ :=
    List.filterMap_eq_cons_iff.mp hrest
  obtain ⟨more, closing, after, rfl, hmore, hclosing, -⟩ :=
    List.filterMap_eq_cons_iff.mp hback
  have hnone : more.filterMap K.call? = [] :=
    List.filterMap_eq_nil_iff.mpr hmore
  refine ⟨⟨(before ++ skipped).map Prod.fst, opening.1,
    (between ++ more).map Prod.fst, closing.1, after.map Prod.fst⟩,
    by simp [Window.stream, Window.packets], hmessage hopening,
    hmessage hclosing, ?_⟩
  have hall : (opening :: (between ++ more ++ [closing])).filterMap K.call? =
      first :: (mid ++ [last]) := by
    rw [List.filterMap_cons_some hopening, List.filterMap_append,
      List.filterMap_append, hbetween, hnone, List.append_nil,
      List.filterMap_cons_some hclosing, List.filterMap_nil]
  rw [← hall, map_message_calls]
  simp [Window.packets]

/-! ## Time -/

/-- The time in milliseconds is the one in microseconds, rounded down. -/
theorem milliSec_eq {packet : IPPacket} (h : packet.Stamped) :
    milliSec packet = packet.micros / 1000 := by
  obtain ⟨⟨hsec, hmax⟩, husec, hmicro⟩ := h
  have htdiv : packet.usec.tdiv 1000 = packet.usec / 1000 :=
    Int.tdiv_eq_ediv_of_nonneg husec
  have hwrap : ∀ n : Int, 0 ≤ n → n < 2 ^ 63 → toLong n = n := by
    intro n hn hlt
    exact Int.bmod_eq_of_le (by omega) (by omega)
  rw [milliSec, htdiv, hwrap (packet.sec * 1000) (by omega) (by omega),
    hwrap _ (by omega) (by omega), IPPacket.micros]
  omega

/-- What comes through of a stream in the order of time is timed. -/
theorem timed_of_chronological {stream : List (Jpcap.Packet × SendResult)}
    (h : Chronological (stream.map Prod.fst)) :
    SIPHandler.Timed (stream.filterMap K.call?) := by
  have hstamped : ∀ p ∈ stream, ∀ call, K.call? p = some call →
      ∃ packet, p.1 = .ipPacket packet ∧ packet.Stamped ∧
        call.message.time = packet.micros / 1000 := by
    intro p hp call hcall
    obtain ⟨m, hm, rfl⟩ := Option.map_eq_some_iff.mp hcall
    obtain ⟨packet, heq, htime, -⟩ := K.message?_eq_some hm
    have hmem : .ipPacket packet ∈ stream.map Prod.fst :=
      List.mem_map.mpr ⟨p, hp, heq⟩
    have hstamp := h.stamped packet hmem
    exact ⟨packet, heq, hstamp, htime.trans (milliSec_eq hstamp)⟩
  constructor
  · intro call hcall
    obtain ⟨p, hp, hsome⟩ := List.mem_filterMap.mp hcall
    obtain ⟨packet, -, hstamp, htime⟩ := hstamped p hp call hsome
    obtain ⟨⟨hsec, -⟩, husec, -⟩ := hstamp
    rw [htime, IPPacket.micros]
    omega
  · have hascending := h.ascending
    rw [List.filterMap_map, List.pairwise_filterMap] at hascending
    rw [List.pairwise_map, List.pairwise_filterMap]
    refine hascending.imp_of_mem ?_
    intro p p' hp hp' hle call hcall call' hcall'
    obtain ⟨packet, heq, -, htime⟩ := hstamped p hp call hcall
    obtain ⟨packet', heq', -, htime'⟩ := hstamped p' hp' call' hcall'
    have hmicros := hle packet (by simp [heq, Packet.ipPacket?]) packet'
      (by simp [heq', Packet.ipPacket?])
    rw [htime, htime']
    omega

/-- Every session that reaches the sender is what a window of the stream shows
of its call, its milestones included. If the clock of the library does not go
back, its messages are in the order of time and its milestones between its
start and its end. -/
theorem session_between_packets
    (stream : List (Jpcap.Packet × SendResult)) (r : SessionRef)
    (s : SIPSession) (h : .session r s ∈ (K.machine.run stream).sent) :
    (∃ w : Window, w.stream = stream.map Prod.fst ∧ K.Shows w s) ∧
      (Chronological (stream.map Prod.fst) →
        (s.messages.map SIPMessage.time).Pairwise (· ≤ ·) ∧ s.Spanned) := by
  rw [machine_run] at h
  obtain ⟨pre, first, mid, last, post, hcut, ⟨q, hq, hqid⟩, ⟨p, hp, hpid⟩,
    hstart, hend, hmsgs, hdated⟩ := SIPHandler.sent_between h
  constructor
  · obtain ⟨w, hw, hopening, hclosing, hpackets⟩ := K.window_of_calls hcut
    rw [hq] at hopening hstart
    rw [hp] at hclosing hend
    rw [← hpackets] at hmsgs
    rw [hmsgs] at hdated
    exact ⟨w, hw, ⟨q, hopening, hqid, hstart⟩, ⟨p, hclosing, hpid, hend⟩,
      hmsgs, hdated⟩
  · intro hclock
    have htimed := K.timed_of_chronological hclock
    refine ⟨?_, SIPHandler.spanned_of_sent htimed h⟩
    have hsub : s.messages.Sublist
        ((stream.filterMap K.call?).map SIPHandler.Call.message) := by
      rw [hmsgs, hcut]
      refine List.filter_sublist.trans (List.Sublist.map _ ?_)
      simp only [List.append_assoc, List.cons_append]
      refine List.Sublist.trans ?_ (List.sublist_append_right _ _)
      simp
    have hpair := htimed.2
    rw [← Function.comp_def SIPMessage.time, ← List.map_map] at hpair
    exact hpair.sublist (hsub.map _)

/-- The bytes of a text in ASCII. -/
def ascii (text : String) : List UInt8 :=
  text.toList.map fun c => c.toNat.toUInt8

def inviteText : String :=
  "INVITE sip:biloxi SIP/2.0\r\nCall-ID: 1\r\nCSeq: 1 INVITE\r\n" ++
    "From: <sip:atlanta>\r\nTo: <sip:bob@biloxi>\r\nMax-Forwards: 70\r\n\r\n"

def busyText : String :=
  "SIP/2.0 486 Busy Here\r\nCall-ID: 1\r\nCSeq: 1 INVITE\r\n" ++
    "From: <sip:atlanta>\r\nTo: <sip:bob@biloxi>\r\n\r\n"

def busyHere : Nist.SIPMessage :=
  .response {
    callIdHeader := some "1"
    fromHeader := some ⟨.sipURI { host := "atlanta" }, none⟩
    toHeader := some ⟨.sipURI { user := some "bob", host := "biloxi" }, none⟩
    cSeqHeader := some ⟨Request.INVITE⟩
    statusCode := 486
    reasonPhrase := "Busy Here" }

/-- A platform with ASCII, and a parser that knows two texts. -/
def twoTexts : CaptureSessionKFujii where
  charset data := String.ofList (data.map fun b => Char.ofNat b.toNat)
  factory :=
    { parseSIPMessage := fun data =>
        if data = inviteText then
          .ok (some (SIPFactory.invite (.sipURI { host := "biloxi" })
            (.sipURI { host := "atlanta" }) (some 70)))
        else if data = busyText then .ok (some busyHere)
        else .error .parse }

/-- An `INVITE` that is refused, with a segment without payload between. -/
def refused : List (Jpcap.Packet × SendResult) :=
  [(.ipPacket ⟨"10.0.0.1", "10.0.0.2", 1, 999999,
      .udp ⟨5060, 5060, ascii inviteText⟩⟩, .returns),
    (.ipPacket ⟨"10.0.0.2", "10.0.0.1", 2, 0, .tcp ⟨5060, 5060, []⟩⟩, .returns),
    (.ipPacket ⟨"10.0.0.2", "10.0.0.1", 2, 1000,
      .udp ⟨5060, 5060, ascii busyText⟩⟩, .returns)]

theorem refused_chronological : Chronological (refused.map Prod.fst) where
  stamped := by
    intro packet hmem
    simp only [refused, List.map_cons, List.map_nil, List.mem_cons,
      Packet.ipPacket.injEq, List.not_mem_nil, or_false] at hmem
    rcases hmem with rfl | rfl | rfl <;> constructor <;> simp
  ascending := by decide

set_option maxRecDepth 16384 in
theorem refused_between_packets :
    ∃ s, .session 0 s ∈ (twoTexts.machine.run refused).sent ∧
      s.startTime = 1999 ∧ s.setupTime = 2001 ∧ s.endTime = 2001 ∧
      (∃ w : Window, w.stream = refused.map Prod.fst ∧ twoTexts.Shows w s) ∧
      s.Spanned := by
  have hsent : .session 0 ((twoTexts.machine.run refused).heap 0) ∈
      (twoTexts.machine.run refused).sent := by decide
  obtain ⟨hwindow, hclock⟩ :=
    twoTexts.session_between_packets refused 0 _ hsent
  exact ⟨_, hsent, by decide, by decide, by decide, hwindow,
    (hclock refused_chronological).2⟩

end CaptureSessionKFujii

end Sipana
