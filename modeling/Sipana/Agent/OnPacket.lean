import Sipana.Agent.SIPHandler
import Sipana.Protocol.SIPFactory

/-!
# Captured packets

`onPacket` has the factory make a message of the packet and processes it; when
that throws, the packet is dropped. A handler that is given packets is the
handler of the other modules on the messages of those that are not dropped.

Which messages come through is a matter of the casts and dereferences of
`createMessage`: it takes the URIs in `From`, `To` and the request line to be
SIP URIs and every request to have a `Max-Forwards`.
-/

namespace Sipana

structure Packet where
  data : String
  srcIPAddr : String
  srcIPPort : Int
  dstIPAddr : String
  dstIPPort : Int
  date : Int
deriving DecidableEq, Repr

/-- The part of `onPacket` that writes to the message. -/
def Packet.stamp (packet : Packet) (message : SIPMessage) : SIPMessage :=
  message.mapBase fun base => { base with
    srcAddress := packet.srcIPAddr
    srcPort := packet.srcIPPort
    dstAddress := packet.dstIPAddr
    dstPort := packet.dstIPPort
    time := packet.date }

namespace SIPHandler

variable (factory : SIPFactory)

def onPacket (result : SendResult) (σ : SIPHandler) (packet : Packet) :
    SIPHandler :=
  match factory.createMessageFrom packet.data with
  | .ok (some message) => σ.process ⟨packet.stamp message, result⟩
  -- `message.getCallID()` throws, and every exception is caught and logged
  | .ok none => σ
  | .error _ => σ

/-! ## Runs on packets -/

/-- The call `onPacket` makes unless it drops the packet. -/
def callOf (packet : Packet × SendResult) : Option Call :=
  match factory.createMessageFrom packet.1.data with
  | .ok (some message) => some ⟨packet.1.stamp message, packet.2⟩
  | .ok none | .error _ => none

/-- The handler as a machine on packets. -/
def packetMachine : Machine SIPHandler (Packet × SendResult) :=
  ⟨new, fun σ packet => onPacket factory packet.2 σ packet.1⟩

theorem onPacket_eq (σ : SIPHandler) (packet : Packet × SendResult) :
    onPacket factory packet.2 σ packet.1 =
      ((callOf factory packet).map σ.process).getD σ := by
  unfold onPacket callOf
  cases factory.createMessageFrom packet.1.data with
  | error e => rfl
  | ok message => cases message <;> rfl

/-- A handler that is given packets does what it does on the messages of those
it does not drop. -/
theorem packetMachine_run (packets : List (Packet × SendResult)) :
    (packetMachine factory).run packets =
      run (packets.filterMap (callOf factory)) := by
  induction packets using List.reverseRecOn with
  | nil => rfl
  | append_singleton packets packet ih =>
    rw [Machine.run_snoc, ih, List.filterMap_append]
    show onPacket factory packet.2 _ packet.1 = _
    rw [onPacket_eq]
    cases hcall : callOf factory packet with
    | none => simp [hcall]
    | some call =>
      rw [List.filterMap_cons_some hcall, List.filterMap_nil]
      exact (Machine.run_snoc machine _ call).symm

end SIPHandler

namespace SIPFactory

/-! ## Which messages come through -/

/-- The message has the headers every SIP message must have. -/
def HasMandatory (m : Nist.SIPMessage) : Prop :=
  m.headers.callIdHeader ≠ none ∧ m.headers.fromHeader ≠ none ∧
    m.headers.toHeader ≠ none ∧ m.headers.cSeqHeader ≠ none

instance (m : Nist.SIPMessage) : Decidable (HasMandatory m) :=
  inferInstanceAs (Decidable (_ ∧ _))

/-- The message of the agent says the same. -/
def SameAs : Nist.SIPMessage → SIPMessage → Prop
  | .request sipRequest, .request request =>
    sipRequest.callIdHeader = some request.callID ∧
      request.method = sipRequest.method
  | .response sipResponse, .response response =>
    sipResponse.callIdHeader = some response.callID ∧
      response.statusCode = sipResponse.statusCode ∧
      response.reasonPhrase = sipResponse.reasonPhrase ∧
      sipResponse.cSeqHeader = some ⟨response.relatedRequestMethod⟩
  | .request _, .response _ | .response _, .request _ => False

/-- The factory makes a message of `m` that says the same, and the handler
processes it. -/
def Accepted (m : Nist.SIPMessage) : Prop :=
  ∃ message, createMessage (some m) = .ok (some message) ∧ SameAs m message ∧
    ∀ (factory : SIPFactory) (result : SendResult) (σ : SIPHandler)
      (packet : Packet), factory.parseSIPMessage packet.data = .ok (some m) →
      SIPHandler.onPacket factory result σ packet =
        σ.process ⟨packet.stamp message, result⟩

/-- The scheme is `sip` or `sips`. -/
def IsSipURI : Nist.URI → Prop
  | .sipURI _ => True
  | .telURL _ | .genericURI _ => False

instance : DecidablePred IsSipURI
  | .sipURI _ => .isTrue trivial
  | .telURL _ | .genericURI _ => .isFalse id

/-- What `createSIPRequest` relies on. -/
def ConvertibleByClass : Nist.SIPMessage → Prop
  | .request r => IsSipURI r.requestURI ∧ r.maxForwardsHeader ≠ none
  | .response _ => True

instance : DecidablePred ConvertibleByClass
  | .request _ => inferInstanceAs (Decidable (_ ∧ _))
  | .response _ => .isTrue trivial

/-- What all casts and dereferences of the factory rely on. -/
def Convertible (m : Nist.SIPMessage) : Prop :=
  (∀ address ∈ m.headers.fromHeader, IsSipURI address.uri) ∧
    (∀ address ∈ m.headers.toHeader, IsSipURI address.uri) ∧
    ConvertibleByClass m

instance : DecidablePred Convertible :=
  fun _ => inferInstanceAs (Decidable (_ ∧ _ ∧ _))

theorem isSipURI_iff {uri : Nist.URI} :
    IsSipURI uri ↔ ∃ sipURI, uri = .sipURI sipURI := by
  cases uri <;> simp [IsSipURI]

/-- The address is there and its URI is a SIP URI. -/
theorem address_ok_iff {header : Option Nist.Address} (h : header ≠ none) :
    (∃ address, header = some address ∧ ∃ uri, address.uri = .sipURI uri) ↔
      ∀ address ∈ header, IsSipURI address.uri := by
  obtain ⟨address, rfl⟩ := Option.ne_none_iff_exists'.mp h
  simp [isSipURI_iff]

theorem createByClass_isOk {m : Nist.SIPMessage}
    (h : m.headers.cSeqHeader ≠ none) :
    (∃ message, createByClass m = .ok message) ↔ ConvertibleByClass m := by
  cases m with
  | request r =>
    simp only [ConvertibleByClass, createByClass, createSIPRequest, bind_eq_ok,
      deref_eq_ok, toSipURI_eq_ok, isSipURI_iff, Option.ne_none_iff_exists']
    refine ⟨?_, ?_⟩
    · intro hok
      obtain ⟨_, _, ⟨maxForwards, hmax, uri, huri, _⟩, _⟩ := hok
      exact ⟨⟨uri, huri⟩, maxForwards, hmax⟩
    · intro hok
      obtain ⟨⟨uri, huri⟩, maxForwards, hmax⟩ := hok
      exact ⟨_, _, ⟨maxForwards, hmax, uri, huri, rfl⟩, rfl⟩
  | response r =>
    obtain ⟨cSeq, hcSeq⟩ := Option.ne_none_iff_exists'.mp h
    simp only [ConvertibleByClass, createByClass, createSIPResponse, bind_eq_ok,
      deref_eq_ok, iff_true]
    exact ⟨_, _, ⟨cSeq, hcSeq, rfl⟩, rfl⟩

/-- The common part of the message decides on the Call-ID only. -/
theorem createByClass_sameAs {m : Nist.SIPMessage} {message : SIPMessage}
    (h : createByClass m = .ok message) {f : SIPMessageBase → SIPMessageBase}
    (hcallID : m.headers.callIdHeader = some (f message.base).callID) :
    SameAs m (message.mapBase f) := by
  cases m with
  | request r =>
    simp only [createByClass, createSIPRequest, bind_eq_ok] at h
    obtain ⟨_, ⟨_, _, _, _, hrequest⟩, hmessage⟩ := h
    cases hrequest
    cases hmessage
    exact ⟨hcallID, rfl⟩
  | response r =>
    simp only [createByClass, createSIPResponse, bind_eq_ok, deref_eq_ok] at h
    obtain ⟨_, ⟨cSeq, hcSeq, hresponse⟩, hmessage⟩ := h
    cases hresponse
    cases hmessage
    exact ⟨hcallID, rfl, rfl, hcSeq⟩

/-- What `createMessage` has gone through when it returns. -/
theorem createMessage_eq_ok {m : Nist.SIPMessage}
    {created : Option SIPMessage} :
    createMessage (some m) = .ok created ↔
      ∃ message callID fromAddress fromURI toAddress toURI,
        createByClass m = .ok message ∧
        m.headers.callIdHeader = some callID ∧
        m.headers.fromHeader = some fromAddress ∧
        fromAddress.uri = .sipURI fromURI ∧
        m.headers.toHeader = some toAddress ∧ toAddress.uri = .sipURI toURI ∧
        created = some (message.mapBase fun base => { base with
          callID := callID
          fromUser := getUser fromURI
          fromDisplay := fromAddress.displayName
          toUser := getUser toURI
          toDisplay := toAddress.displayName }) := by
  simp only [createMessage, bind_eq_ok, deref_eq_ok, toSipURI_eq_ok]
  refine ⟨?_, ?_⟩
  · intro h
    obtain ⟨message, hclass, callID, hcallID, fromAddress, hfrom, fromURI,
      hfromURI, toAddress, hto, toURI, htoURI, hcreated⟩ := h
    cases hcreated
    exact ⟨message, callID, fromAddress, fromURI, toAddress, toURI, hclass,
      hcallID, hfrom, hfromURI, hto, htoURI, rfl⟩
  · intro h
    obtain ⟨message, callID, fromAddress, fromURI, toAddress, toURI, hclass,
      hcallID, hfrom, hfromURI, hto, htoURI, rfl⟩ := h
    exact ⟨message, hclass, callID, hcallID, fromAddress, hfrom, fromURI,
      hfromURI, toAddress, hto, toURI, htoURI, rfl⟩

/-- A message with the mandatory headers comes through exactly if the casts and
dereferences succeed. -/
theorem createMessage_isOk {m : Nist.SIPMessage} (h : HasMandatory m) :
    (∃ created, createMessage (some m) = .ok created) ↔ Convertible m := by
  obtain ⟨hcallID, hfrom, hto, hcSeq⟩ := h
  obtain ⟨callID, hcallID⟩ := Option.ne_none_iff_exists'.mp hcallID
  unfold Convertible
  rw [← createByClass_isOk hcSeq, ← address_ok_iff hfrom, ← address_ok_iff hto]
  simp only [createMessage_eq_ok]
  refine ⟨?_, ?_⟩
  · intro hok
    obtain ⟨_, message, _, fromAddress, fromURI, toAddress, toURI, hclass, _,
      hfrom, hfromURI, hto, htoURI, _⟩ := hok
    exact ⟨⟨fromAddress, hfrom, fromURI, hfromURI⟩,
      ⟨toAddress, hto, toURI, htoURI⟩, message, hclass⟩
  · intro hok
    obtain ⟨⟨fromAddress, hfrom, fromURI, hfromURI⟩,
      ⟨toAddress, hto, toURI, htoURI⟩, message, hclass⟩ := hok
    exact ⟨_, message, callID, fromAddress, fromURI, toAddress, toURI, hclass,
      hcallID, hfrom, hfromURI, hto, htoURI, rfl⟩

/-- What the factory makes of a message says the same. -/
theorem createMessage_sameAs {m : Nist.SIPMessage}
    {created : Option SIPMessage} (h : createMessage (some m) = .ok created) :
    ∃ message, created = some message ∧ SameAs m message := by
  obtain ⟨message, callID, _, _, _, _, hclass, hcallID, _, _, _, _, rfl⟩ :=
    createMessage_eq_ok.mp h
  exact ⟨_, rfl, createByClass_sameAs hclass hcallID⟩

/-- The handler processes what the factory has made. -/
theorem onPacket_of_created {m : Nist.SIPMessage} {message : SIPMessage}
    (h : createMessage (some m) = .ok (some message)) (factory : SIPFactory)
    (result : SendResult) (σ : SIPHandler) (packet : Packet)
    (hparse : factory.parseSIPMessage packet.data = .ok (some m)) :
    SIPHandler.onPacket factory result σ packet =
      σ.process ⟨packet.stamp message, result⟩ := by
  have hcreate : factory.createMessageFrom packet.data = .ok (some message) :=
    bind_eq_ok.mpr ⟨some m, hparse, h⟩
  unfold SIPHandler.onPacket
  rw [hcreate]

/-- A parsed message is accepted exactly if the URIs in `From` and `To` are SIP
URIs and, for a request, the one in the request line is and `Max-Forwards` is
there. -/
theorem accepted_iff_convertible {m : Nist.SIPMessage} (h : HasMandatory m) :
    Accepted m ↔ Convertible m := by
  rw [← createMessage_isOk h]
  refine ⟨?_, ?_⟩
  · intro haccepted
    obtain ⟨message, hcreated, -⟩ := haccepted
    exact ⟨some message, hcreated⟩
  · intro hok
    obtain ⟨created, hcreated⟩ := hok
    obtain ⟨message, rfl, hsame⟩ := createMessage_sameAs hcreated
    exact ⟨message, hcreated, hsame, onPacket_of_created hcreated⟩

/-- An `INVITE` from a user to a telephone number. -/
def invite (requestURI fromURI : Nist.URI) (maxForwards : Option Int) :
    Nist.SIPMessage :=
  .request {
    callIdHeader := some "1"
    fromHeader := some ⟨fromURI, none⟩
    toHeader := some ⟨.sipURI { user := some "bob", host := "biloxi" }, none⟩
    cSeqHeader := some ⟨Request.INVITE⟩
    maxForwardsHeader := maxForwards
    method := Request.INVITE
    requestURI := requestURI }

theorem sips_invite_accepted :
    Accepted (invite (.sipURI { host := "biloxi" })
      (.sipURI { isSecure := true, host := "atlanta" }) (some 70)) :=
  (accepted_iff_convertible (by decide)).mpr (by decide)

/-- A caller with a telephone number. -/
theorem tel_invite_dropped : ¬ ∀ m, HasMandatory m → Accepted m := by
  intro h
  obtain ⟨message, hcreated, -⟩ := h
    (invite (.sipURI { host := "biloxi" }) (.telURL "+15551234") (some 70))
    (by decide)
  exact absurd hcreated nofun

end SIPFactory

end Sipana
