/-
The wire format between a relay and its clients.

A message starts with a protocol version and a message type.  `Marshal*` functions fill a
buffer, `Unmarshal*` functions cut it up again, each kind with offsets of its own.  The
two deprecated kinds get them wrong: `UnmarshalHelloMsg` cuts the payload two bytes too
early, and `UnmarshalHelloResponse` does not cut off the header at all.

* `marshalPeerIDs_roundTrips` — a list of peers, message by message;
* `roundTrips_iff` — every kind of message round-trips except those two;
* `hello_payload_shifted` — a hello message that does not.
-/
import Netbird.Lib.Buffer
import Netbird.Lib.Checked

namespace Netbird.Relay

open Buffer List Except Nat

/-! ### Sizes and offsets -/

def maxHandshakeSize : ℕ := 212
def maxHandshakeRespSize : ℕ := 8192
def maxMessageSize : ℕ := 8820

def currentProtocolVersion : UInt8 := 1

def sizeOfVersionByte : ℕ := 1
def sizeOfMsgType : ℕ := 1
def sizeOfProtoHeader : ℕ := sizeOfVersionByte + sizeOfMsgType

def prefixLength : ℕ := 4

def peerIDSize : ℕ := prefixLength + 32

def sizeOfMagicByte : ℕ := 4
def headerSizeAuth : ℕ := sizeOfMagicByte + peerIDSize
def offsetMagicByte : ℕ := sizeOfProtoHeader
def offsetAuthPeerID : ℕ := sizeOfProtoHeader + sizeOfMagicByte
def headerTotalSizeAuth : ℕ := sizeOfProtoHeader + headerSizeAuth

def headerSizeHello : ℕ := sizeOfMagicByte + peerIDSize
def headerSizeHelloResp : ℕ := 0

def headerSizeTransport : ℕ := peerIDSize
def offsetTransportID : ℕ := sizeOfProtoHeader
def headerTotalSizeTransport : ℕ := sizeOfProtoHeader + headerSizeTransport

def magicHeader : List UInt8 := [0x21, 0x12, 0xA4, 0x42]

inductive MsgType where
  | hello
  | helloResponse
  | transport
  | auth
  | authResponse
  | subscribePeerState
  | unsubscribePeerState
  | peersOnline
  | peersWentOffline
  deriving DecidableEq

def MsgType.code : MsgType → UInt8
  | .hello => 1
  | .helloResponse => 2
  | .transport => 3
  | .auth => 6
  | .authResponse => 7
  | .subscribePeerState => 8
  | .unsubscribePeerState => 9
  | .peersOnline => 10
  | .peersWentOffline => 11

/-- A hashed peer ID, an array of fixed size. -/
structure PeerID where
  bytes : List UInt8
  size : bytes.length = peerIDSize
  deriving DecidableEq

theorem PeerID.ext {x y : PeerID} (h : x.bytes = y.bytes) : x = y := by
  cases x
  cases h
  rfl

inductive MessageError where
  | invalidMessageLength
  | invalidMagicHeader
  | tooLargeAuthPayload
  | invalidLength (n : ℕ)
  | noPeerIDs
  | invalidMessageFormat
  | invalidPeerListSize (n : ℕ)
  deriving DecidableEq

/-- `make([]byte, n)` with the version and the type written to it. -/
def makeMsg (n : ℕ) (type : MsgType) : List UInt8 :=
  ((List.replicate n 0).set 0 currentProtocolVersion).set 1 type.code

/-! ### Hello -/

def marshalHelloMsg (peerID : PeerID) (additions : List UInt8) : Except MessageError (List UInt8) :=
  let msg := makeMsg (sizeOfProtoHeader + sizeOfMagicByte) .hello
  let msg := copyAt msg sizeOfProtoHeader magicHeader
  .ok (msg ++ peerID.bytes ++ additions)

variable (msg : List UInt8)

def unmarshalHelloMsg : Except MessageError (PeerID × List UInt8) :=
  if h : msg.length < sizeOfProtoHeader + headerSizeHello then .error .invalidMessageLength
  else if slice msg sizeOfProtoHeader (sizeOfProtoHeader + sizeOfMagicByte) ≠ magicHeader then
    .error .invalidMagicHeader
  else
    let peerID : PeerID :=
      ⟨slice msg (sizeOfProtoHeader + sizeOfMagicByte) (sizeOfProtoHeader + headerSizeHello),
        length_slice (Nat.le_of_not_lt h)⟩
    .ok (peerID, msg.drop headerSizeHello)

def marshalHelloResponse (additionalData : List UInt8) : Except MessageError (List UInt8) :=
  .ok (makeMsg sizeOfProtoHeader .helloResponse ++ additionalData)

def unmarshalHelloResponse : Except MessageError (List UInt8) :=
  if msg.length < sizeOfProtoHeader + headerSizeHelloResp then .error .invalidMessageLength
  else .ok msg

/-! ### Auth -/

def marshalAuthMsg (peerID : PeerID) (authPayload : List UInt8) : Except MessageError (List UInt8) :=
  if headerTotalSizeAuth + authPayload.length > maxHandshakeSize then .error .tooLargeAuthPayload
  else
    let msg := makeMsg (headerTotalSizeAuth + authPayload.length) .auth
    let msg := copyAt msg sizeOfProtoHeader magicHeader
    let msg := copyAt msg offsetAuthPeerID peerID.bytes
    .ok (copyAt msg headerTotalSizeAuth authPayload)

def unmarshalAuthMsg : Except MessageError (PeerID × List UInt8) :=
  if h : msg.length < headerTotalSizeAuth then .error .invalidMessageLength
  else if slice msg offsetMagicByte (offsetMagicByte + sizeOfMagicByte) ≠ magicHeader then
    .error .invalidMagicHeader
  else
    let peerID : PeerID :=
      ⟨slice msg offsetAuthPeerID headerTotalSizeAuth, length_slice (Nat.le_of_not_lt h)⟩
    .ok (peerID, msg.drop headerTotalSizeAuth)

/-- The address is a Go string, given by its bytes. -/
def marshalAuthResponse (address : List UInt8) : Except MessageError (List UInt8) :=
  let msg := makeMsg sizeOfProtoHeader .authResponse ++ address
  if msg.length > maxHandshakeRespSize then .error (.invalidLength msg.length) else .ok msg

def unmarshalAuthResponse : Except MessageError (List UInt8) :=
  if msg.length < sizeOfProtoHeader + 1 then .error .invalidMessageLength
  else .ok (msg.drop sizeOfProtoHeader)

/-! ### Transport -/

def marshalTransportMsg (peerID : PeerID) (payload : List UInt8) :
    Except MessageError (List UInt8) :=
  let msg := makeMsg (headerTotalSizeTransport + payload.length) .transport
  let msg := copyAt msg sizeOfProtoHeader peerID.bytes
  .ok (copyAt msg (sizeOfProtoHeader + peerIDSize) payload)

variable (buf : List UInt8)

def unmarshalTransportMsg : Except MessageError (PeerID × List UInt8) :=
  if h : buf.length < headerTotalSizeTransport then .error .invalidMessageLength
  else
    let peerID : PeerID :=
      ⟨slice buf offsetTransportID (offsetTransportID + peerIDSize),
        (length_slice (Nat.le_of_not_lt h)).trans (Nat.add_sub_cancel_left _ _)⟩
    .ok (peerID, buf.drop headerTotalSizeTransport)

/-- The buffer with the peer ID overwritten. -/
def updateTransportMsg (peerID : PeerID) : Except MessageError (List UInt8) :=
  if msg.length < offsetTransportID + peerIDSize then .error .invalidMessageLength
  else .ok (copyAt msg offsetTransportID peerID.bytes)

/-! ### Lists of peers -/

def maxPeersPerMessage : ℕ := (maxMessageSize - sizeOfProtoHeader) / peerIDSize

/-- The message for one chunk of the list. -/
def marshalChunk (msgType : MsgType) (chunk : List PeerID) : List UInt8 :=
  let buf := makeMsg (sizeOfProtoHeader + chunk.length * peerIDSize) msgType
  (writeAll peerIDSize (chunk.map (·.bytes)) buf sizeOfProtoHeader).1

variable (ids : List PeerID)

def marshalPeerIDs (msgType : MsgType) : Except MessageError (List (List UInt8)) :=
  if ids.length = 0 then .error .noPeerIDs
  else .ok ((chunks maxPeersPerMessage ids).map (marshalChunk msgType))

/-- `copy(id[:], src)` for an array that is still zero. -/
def PeerID.ofBytes (src : List UInt8) : PeerID :=
  ⟨(src ++ List.replicate peerIDSize 0).take peerIDSize, by simp⟩

def unmarshalPeerIDs : Except MessageError (List PeerID) :=
  if buf.length < sizeOfProtoHeader then .error .invalidMessageFormat
  else if (buf.length - sizeOfProtoHeader) % peerIDSize ≠ 0 then
    .error (.invalidPeerListSize (buf.length - sizeOfProtoHeader))
  else
    let numIDs := (buf.length - sizeOfProtoHeader) / peerIDSize
    .ok ((readAll peerIDSize numIDs buf sizeOfProtoHeader).map PeerID.ofBytes)

def marshalSubPeerStateMsg : Except MessageError (List (List UInt8)) :=
  marshalPeerIDs ids .subscribePeerState

def unmarshalSubPeerStateMsg : Except MessageError (List PeerID) :=
  unmarshalPeerIDs buf

def marshalUnsubPeerStateMsg : Except MessageError (List (List UInt8)) :=
  marshalPeerIDs ids .unsubscribePeerState

def unmarshalUnsubPeerStateMsg : Except MessageError (List PeerID) :=
  unmarshalPeerIDs buf

def marshalPeersOnline : Except MessageError (List (List UInt8)) :=
  marshalPeerIDs ids .peersOnline

def unmarshalPeersOnlineMsg : Except MessageError (List PeerID) :=
  unmarshalPeerIDs buf

def marshalPeersWentOffline : Except MessageError (List (List UInt8)) :=
  marshalPeerIDs ids .peersWentOffline

def unMarshalPeersWentOffline : Except MessageError (List PeerID) :=
  unmarshalPeerIDs buf

/-! ### What the messages look like -/

/-- The first two bytes of a message. -/
def protoHeader (type : MsgType) : List UInt8 :=
  [currentProtocolVersion, type.code]

theorem makeMsg_eq (n : ℕ) (type : MsgType) :
    makeMsg (sizeOfProtoHeader + n) type = protoHeader type ++ replicate n 0 := by
  have hn : sizeOfProtoHeader + n = n + 1 + 1 := by
    rw [sizeOfProtoHeader, sizeOfVersionByte, sizeOfMsgType]
    omega
  rw [hn]
  rfl

variable (peerID : PeerID)

theorem size_auth :
    headerTotalSizeAuth = (protoHeader .auth ++ magicHeader ++ peerID.bytes).length := by
  rw [length_append, peerID.size]
  rfl

theorem size_transport :
    headerTotalSizeTransport = (protoHeader .transport ++ peerID.bytes).length := by
  rw [length_append, peerID.size]
  rfl

theorem marshalAuthMsg_eq_ok {peerID : PeerID} {authPayload msg : List UInt8}
    (h : marshalAuthMsg peerID authPayload = .ok msg) :
    msg = protoHeader .auth ++ magicHeader ++ peerID.bytes ++ authPayload := by
  have hsize : headerTotalSizeAuth + authPayload.length = sizeOfProtoHeader +
      (magicHeader.length + (peerID.bytes.length + (authPayload.length + 0))) := by
    rw [peerID.size, headerTotalSizeAuth, headerSizeAuth, add_assoc, add_assoc]
    rfl
  have hmagic : sizeOfProtoHeader = (protoHeader .auth).length := rfl
  have hid : offsetAuthPeerID = (protoHeader .auth ++ magicHeader).length := rfl
  rw [marshalAuthMsg] at h
  split_ifs at h
  -- the magic bytes, the peer and the payload are written one behind the other
  rw [← ok.inj h, hsize, makeMsg_eq, copyAt_fill hmagic, copyAt_fill hid,
    copyAt_fill (size_auth peerID), replicate_zero, append_nil]

theorem marshalTransportMsg_eq (payload : List UInt8) : marshalTransportMsg peerID payload =
      .ok (protoHeader .transport ++ peerID.bytes ++ payload) := by
  have hsize : headerTotalSizeTransport + payload.length =
      sizeOfProtoHeader + (peerID.bytes.length + (payload.length + 0)) := by
    rw [peerID.size, headerTotalSizeTransport, headerSizeTransport, add_zero, add_assoc]
  have hid : sizeOfProtoHeader = (protoHeader .transport).length := rfl
  have hpayload : sizeOfProtoHeader + peerIDSize = _ := size_transport peerID
  rw [marshalTransportMsg, hsize, makeMsg_eq, copyAt_fill hid, copyAt_fill hpayload,
    replicate_zero, append_nil]

variable (msgType : MsgType)

theorem size_bytes (chunk : List PeerID) :
    ∀ item ∈ chunk.map (·.bytes), item.length = peerIDSize := by
  intro item hitem
  obtain ⟨id, -, rfl⟩ := mem_map.mp hitem
  exact id.size

theorem marshalChunk_eq (chunk : List PeerID) :
    marshalChunk msgType chunk = protoHeader msgType ++ (chunk.map (·.bytes)).flatten := by
  rw [marshalChunk, makeMsg_eq]
  refine writeAll_eq (size_bytes chunk) (protoHeader msgType) _ ?_
  rw [length_replicate, length_map]

/-! ### The messages read back -/

/-- **A hello message** is read with the last two bytes of the peer ID before the payload. -/
theorem unmarshalHelloMsg_marshal (additions : List UInt8) :
    unmarshalHelloMsg (protoHeader .hello ++ magicHeader ++ peerID.bytes ++ additions) =
      .ok (peerID, peerID.bytes.drop (peerIDSize - sizeOfProtoHeader) ++ additions) := by
  have hsize : sizeOfProtoHeader + headerSizeHello =
      (protoHeader .hello ++ magicHeader ++ peerID.bytes).length := by
    rw [length_append, peerID.size]
    rfl
  rw [unmarshalHelloMsg, dif_neg (not_length_append_lt hsize)]
  refine congrArg ok (Prod.ext (PeerID.ext ?_) ?_)
  · exact slice_append rfl (by rw [peerID.size]; rfl)
  · have hdrop : headerSizeHello = (protoHeader .hello ++ magicHeader).length +
      (peerIDSize - sizeOfProtoHeader) := rfl
    have hle : peerIDSize - sizeOfProtoHeader ≤ peerID.bytes.length := by
      rw [peerID.size]
      exact Nat.sub_le _ _
    dsimp only
    rw [append_assoc (protoHeader .hello ++ magicHeader), hdrop, drop_length_add_append,
      drop_append_of_le_length hle]

/-- **A hello response** is read with its header. -/
theorem unmarshalHelloResponse_marshal (additionalData : List UInt8) :
    unmarshalHelloResponse (protoHeader .helloResponse ++ additionalData) =
      .ok (protoHeader .helloResponse ++ additionalData) := by
  exact if_neg (not_length_append_lt rfl)

theorem unmarshalAuthMsg_marshal (authPayload : List UInt8) :
    unmarshalAuthMsg (protoHeader .auth ++ magicHeader ++ peerID.bytes ++ authPayload) =
      .ok (peerID, authPayload) := by
  have hsize := size_auth peerID
  rw [unmarshalAuthMsg, dif_neg (not_length_append_lt hsize)]
  refine congrArg ok (Prod.ext (PeerID.ext ?_) (drop_left' hsize.symm))
  exact slice_append rfl (by rw [hsize, length_append])

theorem unmarshalAuthResponse_marshal {address : List UInt8} (h : address ≠ []) :
    unmarshalAuthResponse (protoHeader .authResponse ++ address) = .ok address := by
  have hpos := length_pos_iff.mpr h
  have hheader : (protoHeader .authResponse).length = sizeOfProtoHeader := rfl
  rw [unmarshalAuthResponse, if_neg (by rw [length_append]; omega)]
  rfl

theorem unmarshalTransportMsg_marshal (payload : List UInt8) :
    unmarshalTransportMsg (protoHeader .transport ++ peerID.bytes ++ payload) =
      .ok (peerID, payload) := by
  have hsize := size_transport peerID
  rw [unmarshalTransportMsg, dif_neg (not_length_append_lt hsize)]
  refine congrArg ok (Prod.ext (PeerID.ext ?_) (drop_left' hsize.symm))
  exact slice_append rfl (by rw [peerID.size]; rfl)

/-- **A hop through the relay** replaces the peer and nothing else. -/
theorem updateTransportMsg_marshal (source : PeerID) (payload : List UInt8) :
    updateTransportMsg (protoHeader .transport ++ peerID.bytes ++ payload) source =
      .ok (protoHeader .transport ++ source.bytes ++ payload) := by
  have hsize : offsetTransportID + peerIDSize = _ := size_transport peerID
  rw [updateTransportMsg, if_neg (not_length_append_lt hsize)]
  exact congrArg ok (copyAt_append (peerID.size.trans source.size.symm))

theorem PeerID.ofBytes_bytes (id : PeerID) : PeerID.ofBytes id.bytes = id :=
  PeerID.ext (take_left' id.size)

theorem unmarshalPeerIDs_marshalChunk (chunk : List PeerID) :
    unmarshalPeerIDs (marshalChunk msgType chunk) = .ok chunk := by
  have hrest : (marshalChunk msgType chunk).length - sizeOfProtoHeader = chunk.length * peerIDSize := by
    rw [marshalChunk_eq, length_append, length_flatten (size_bytes chunk), length_map]
    exact Nat.add_sub_cancel_left _ _
  have hpos : 0 < peerIDSize := by decide
  rw [unmarshalPeerIDs, hrest, mul_mod_left]
  have hread := readAll_append (size_bytes chunk) (protoHeader msgType)
  rw [length_map] at hread
  rw [Nat.mul_div_cancel _ hpos, marshalChunk_eq]
  change ok ((readAll peerIDSize chunk.length _ (protoHeader msgType).length).map _) = _
  have hids : (chunk.map (·.bytes)).map PeerID.ofBytes = chunk := by
    rw [map_map]
    exact map_id'' PeerID.ofBytes_bytes chunk
  rw [hread, hids]

/-- The messages of a list are short enough and read back to it, one after the other. -/
def ListRoundTrips (marshal : List PeerID → Except MessageError (List (List UInt8)))
    (unmarshal : List UInt8 → Except MessageError (List PeerID)) (ids : List PeerID) : Prop :=
  ∀ msgs, marshal ids = .ok msgs → (∀ msg ∈ msgs, msg.length ≤ maxMessageSize) ∧
    ∃ lists, msgs.mapM unmarshal = .ok lists ∧ lists.flatten = ids

theorem length_marshalChunk {msgType : MsgType} {chunk : List PeerID}
    (h : chunk.length ≤ maxPeersPerMessage) :
    (marshalChunk msgType chunk).length ≤ maxMessageSize := by
  have hfit : sizeOfProtoHeader + maxPeersPerMessage * peerIDSize ≤ maxMessageSize := by decide
  rw [marshalChunk_eq, length_append, length_flatten (size_bytes chunk), length_map]
  calc (protoHeader msgType).length + chunk.length * peerIDSize
      ≤ sizeOfProtoHeader + maxPeersPerMessage * peerIDSize :=
        Nat.add_le_add_left (Nat.mul_le_mul_right _ h) _
    _ ≤ maxMessageSize := hfit

theorem marshalPeerIDs_roundTrips (ids : List PeerID) :
    ListRoundTrips (marshalPeerIDs · msgType) unmarshalPeerIDs ids := by
  intro msgs h
  dsimp only at h
  rw [marshalPeerIDs] at h
  split_ifs at h
  obtain rfl := ok.inj h
  refine ⟨fun msg hmsg => ?_, chunks maxPeersPerMessage ids, ?_, flatten_chunks (by decide) ids⟩
  · obtain ⟨chunk, hchunk, rfl⟩ := mem_map.mp hmsg
    exact length_marshalChunk (length_of_mem_chunks hchunk)
  · rw [mapM_eq_ok]
    refine forall₂_map_left_iff.mpr (forall₂_same.mpr fun chunk _ => ?_)
    exact unmarshalPeerIDs_marshalChunk msgType chunk

/-! ### Round trips -/

/-- The arguments of a `Marshal` function. -/
inductive Message where
  | hello (peerID : PeerID) (additions : List UInt8)
  | helloResponse (additionalData : List UInt8)
  | auth (peerID : PeerID) (authPayload : List UInt8)
  | authResponse (address : List UInt8)
  | transport (peerID : PeerID) (payload : List UInt8)
  | subPeerState (ids : List PeerID)
  | unsubPeerState (ids : List PeerID)
  | peersOnline (ids : List PeerID)
  | peersWentOffline (ids : List PeerID)

namespace Message

/-- If the message can be marshalled, the matching `Unmarshal` function returns what was
marshalled; for a transport message also after a hop. -/
def RoundTrips : Message → Prop
  | hello peerID additions => ∀ msg, marshalHelloMsg peerID additions = .ok msg →
      unmarshalHelloMsg msg = .ok (peerID, additions)
  | helloResponse additionalData => ∀ msg, marshalHelloResponse additionalData = .ok msg →
      unmarshalHelloResponse msg = .ok additionalData
  | auth peerID authPayload => ∀ msg, marshalAuthMsg peerID authPayload = .ok msg →
      unmarshalAuthMsg msg = .ok (peerID, authPayload)
  | authResponse address => address ≠ [] → ∀ msg, marshalAuthResponse address = .ok msg →
      unmarshalAuthResponse msg = .ok address
  | transport peerID payload => ∀ msg, marshalTransportMsg peerID payload = .ok msg →
      unmarshalTransportMsg msg = .ok (peerID, payload) ∧
        ∀ source, ∃ hop, updateTransportMsg msg source = .ok hop ∧
          unmarshalTransportMsg hop = .ok (source, payload)
  | subPeerState ids => ListRoundTrips marshalSubPeerStateMsg unmarshalSubPeerStateMsg ids
  | unsubPeerState ids => ListRoundTrips marshalUnsubPeerStateMsg unmarshalUnsubPeerStateMsg ids
  | peersOnline ids => ListRoundTrips marshalPeersOnline unmarshalPeersOnlineMsg ids
  | peersWentOffline ids => ListRoundTrips marshalPeersWentOffline unMarshalPeersWentOffline ids

/-- The two deprecated kinds. -/
def isHello : Message → Bool
  | hello .. => true
  | helloResponse .. => true
  | _ => false

theorem not_roundTrips_hello (peerID : PeerID) (additions : List UInt8) :
    ¬ (hello peerID additions).RoundTrips := by
  intro h
  have heq := (unmarshalHelloMsg_marshal peerID additions).symm.trans (h _ rfl)
  -- the payload that is read is two bytes longer
  have hlen := congrArg length (Prod.mk.inj (ok.inj heq)).2
  rw [length_append, length_drop, peerID.size] at hlen
  have htwo : peerIDSize - (peerIDSize - sizeOfProtoHeader) = 2 := rfl
  omega

theorem not_roundTrips_helloResponse (additionalData : List UInt8) :
    ¬ (helloResponse additionalData).RoundTrips := by
  intro h
  have heq := (unmarshalHelloResponse_marshal additionalData).symm.trans (h _ rfl)
  have hlen := congrArg length (ok.inj heq)
  rw [length_append] at hlen
  have htwo : (protoHeader .helloResponse).length = 2 := rfl
  omega

/-- **The wire format round-trips** for every message except the two deprecated kinds, for which
it never does. -/
theorem roundTrips_iff (m : Message) : m.RoundTrips ↔ m.isHello = false := by
  cases m with
  | hello peerID additions =>
    exact ⟨fun h => absurd h (not_roundTrips_hello peerID additions), fun h => by cases h⟩
  | helloResponse additionalData =>
    exact ⟨fun h => absurd h (not_roundTrips_helloResponse additionalData), fun h => by cases h⟩
  | auth peerID authPayload =>
    refine ⟨fun _ => rfl, fun _ msg hmsg => ?_⟩
    rw [marshalAuthMsg_eq_ok hmsg]
    exact unmarshalAuthMsg_marshal peerID authPayload
  | authResponse address =>
    refine ⟨fun _ => rfl, fun _ hne msg hmsg => ?_⟩
    rw [marshalAuthResponse] at hmsg
    split_ifs at hmsg
    rw [← ok.inj hmsg]
    exact unmarshalAuthResponse_marshal hne
  | transport peerID payload =>
    refine ⟨fun _ => rfl, fun _ msg hmsg => ?_⟩
    rw [marshalTransportMsg_eq] at hmsg
    rw [← ok.inj hmsg]
    exact ⟨unmarshalTransportMsg_marshal peerID payload, fun source =>
      ⟨_, updateTransportMsg_marshal peerID source payload,
        unmarshalTransportMsg_marshal source payload⟩⟩
  | subPeerState ids | unsubPeerState ids | peersOnline ids | peersWentOffline ids =>
    exact ⟨fun _ => rfl, fun _ => marshalPeerIDs_roundTrips _ ids⟩

end Message

def samplePeerID : PeerID :=
  ⟨List.replicate 34 0 ++ [8, 9], rfl⟩

/-- The payload `[7]` of a hello message is read as `[8, 9, 7]`, and that of a hello response with
the header before it. -/
theorem hello_payload_shifted :
    (marshalHelloMsg samplePeerID [7]).bind unmarshalHelloMsg = .ok (samplePeerID, [8, 9, 7]) ∧
      (marshalHelloResponse [7]).bind unmarshalHelloResponse = .ok [1, 2, 7] := by
  decide

end Netbird.Relay
