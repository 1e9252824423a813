/-
Packets and the decoder of the userspace filter.

The filter (`client/firewall/uspfilter`) reads packets with a `DecodingLayerParser` of the
gopacket library: the headers of a packet are decoded one after another, each into the one
struct that the decoder has for its type, until the payload is empty or belongs to a type
without a struct.  How the library reads a header is left to the environment: `Gopacket` has one
reader for each type, and what the filter relies on as named laws about them.

* `decodeFrom_eq` — decoding stores the headers of a packet in the decoder, in their order;
* `decoded_second` — a packet keeps its second header when it is rewritten and decoded again.
-/
import Netbird.Lib.Wire
import Netbird.Lib.Addr

namespace Netbird.Firewall

open List Option

abbrev Bytes := List UInt8

open Wire (be16)

/-- `gopacket.LayerType`, with the two values 0 and 255 that the filter uses in rules. -/
inductive LayerType where
  | zero
  | ipv4
  | ipv6
  | tcp
  | udp
  | icmpv4
  | icmpv6
  | all
  | other (protocol : UInt8)
  | fragment
  deriving DecidableEq, Inhabited

/-! ### Headers -/

structure IPv4 where
  ihl : ℕ
  moreFragments : Bool
  fragOffset : UInt16
  protocol : UInt8
  srcIP : Bytes
  dstIP : Bytes
  deriving DecidableEq, Inhabited

structure IPv6 where
  srcIP : Bytes
  dstIP : Bytes
  deriving DecidableEq, Inhabited

structure TCPOption where
  kind : UInt8
  data : Bytes
  deriving DecidableEq, Inhabited

structure TCP where
  srcPort : UInt16
  dstPort : UInt16
  fin : Bool
  syn : Bool
  rst : Bool
  psh : Bool
  ack : Bool
  urg : Bool
  options : List TCPOption
  deriving DecidableEq, Inhabited

structure UDP where
  srcPort : UInt16
  dstPort : UInt16
  deriving DecidableEq, Inhabited

structure ICMPv4 where
  type : UInt8
  code : UInt8
  id : UInt16
  payload : Bytes
  deriving DecidableEq, Inhabited

/-- The number of bytes that an option takes in the header, as `updateMSSOption` counts them. -/
def TCPOption.size (o : TCPOption) : ℕ :=
  if o.kind = 0 ∨ o.kind = 1 then 1 else 2 + o.data.length

/-- An IPv4 packet without options and with a payload of eight bytes. -/
def packet28 (protocol : UInt8) (srcIP dstIP payload : Bytes) : Bytes :=
  [0x45, 0, 0, 28, 0, 0, 0, 0, 64, protocol, 0, 0] ++ srcIP ++ dstIP ++ payload

/-! ### The library -/

/-- How the library reads headers. A reader of IP headers also returns the type of what follows
and the payload; no type with a struct follows a transport header, so its payload is left out. -/
structure Gopacket where
  ipv4 : Bytes → Option (IPv4 × LayerType × Bytes)
  ipv6 : Bytes → Option (IPv6 × LayerType × Bytes)
  tcp : Bytes → Option TCP
  udp : Bytes → Option UDP
  icmpv4 : Bytes → Option ICMPv4
  /-- whether the header can be read; the filter uses none of its fields -/
  icmpv6 : Bytes → Bool
  /-- an IPv4 header and its payload lie within the packet, the addresses at their places -/
  ipv4_fits : ∀ {data h next payload}, ipv4 data = some (h, next, payload) →
    20 ≤ data.length ∧ 5 ≤ h.ihl ∧ h.ihl * 4 + payload.length ≤ data.length ∧
      h.srcIP = (data.drop 12).take 4 ∧ h.dstIP = (data.drop 16).take 4
  /-- the first ten bytes and the length of the packet tell what follows an IPv4 header -/
  ipv4_follows : ∀ {data data' h h' next next' payload payload'},
    ipv4 data = some (h, next, payload) → ipv4 data' = some (h', next', payload') →
    Wire.Agree (· < 10) data data' → next' = next ∧ payload'.length = payload.length
  ipv6_shorter : ∀ {data h next payload}, ipv6 data = some (h, next, payload) →
    payload.length < data.length
  /-- the options of a TCP header lie within it, one after another -/
  tcp_fits : ∀ {data h}, tcp data = some h →
    20 + (h.options.map TCPOption.size).sum ≤ data.length
  udp_fits : ∀ {data h}, udp data = some h → 8 ≤ data.length
  /-- a packet without options is read -/
  ipv4_reads : ∀ {protocol layer srcIP dstIP payload},
    protocol = 1 ∧ layer = .icmpv4 ∨ protocol = 17 ∧ layer = .udp →
    srcIP.length = 4 → dstIP.length = 4 → payload.length = 8 →
    ipv4 (packet28 protocol srcIP dstIP payload) =
      some (⟨5, false, 0, protocol, srcIP, dstIP⟩, layer, payload)
  udp_reads : ∀ {data}, data.length = 8 → be16 data 4 = 8 →
    udp data = some ⟨be16 data 0, be16 data 2⟩
  icmpv4_reads : ∀ {data}, data.length = 8 →
    icmpv4 data = some ⟨data.getD 0 0, data.getD 1 0, be16 data 4, []⟩

section Plain

variable (data : Bytes)

/-- The type that the protocol number of an IPv4 header stands for, of those in the samples. -/
def plainLayer (protocol : UInt8) : LayerType :=
  if protocol = 1 then .icmpv4
  else if protocol = 4 then .ipv4
  else if protocol = 6 then .tcp
  else if protocol = 17 then .udp
  else .other protocol

/-- An IPv4 header without options whose length field is that of the packet. -/
def plainIPv4 : Option (IPv4 × LayerType × Bytes) :=
  if 20 ≤ data.length ∧ data.getD 0 0 = 0x45 ∧ (be16 data 2).toNat = data.length then
    some ({ ihl := 5
            moreFragments := be16 data 6 &&& 0x2000 ≠ 0
            fragOffset := be16 data 6 &&& 0x1fff
            protocol := data.getD 9 0
            srcIP := (data.drop 12).take 4
            dstIP := (data.drop 16).take 4 },
      if be16 data 6 &&& 0x3fff ≠ 0 then .fragment else plainLayer (data.getD 9 0), data.drop 20)
  else none

/-- A TCP header without options. -/
def plainTCP : Option TCP :=
  let flag (mask : UInt8) : Bool := data.getD 13 0 &&& mask ≠ 0
  if 20 ≤ data.length ∧ data.getD 12 0 >>> 4 = 5 then
    some
      { srcPort := be16 data 0
        dstPort := be16 data 2
        fin := flag 0x01
        syn := flag 0x02
        rst := flag 0x04
        psh := flag 0x08
        ack := flag 0x10
        urg := flag 0x20
        options := [] }
  else none

theorem plainIPv4_eq_some {h : IPv4} {next : LayerType} {payload : Bytes}
    (hread : plainIPv4 data = some (h, next, payload)) :
    20 ≤ data.length ∧ h.ihl = 5 ∧ h.srcIP = (data.drop 12).take 4 ∧
      h.dstIP = (data.drop 16).take 4 ∧ payload = data.drop 20 ∧
      next = if be16 data 6 &&& 0x3fff ≠ 0 then .fragment else plainLayer (data.getD 9 0) := by
  obtain ⟨⟨hlen, _⟩, hsome⟩ := ite_none_right_eq_some.mp hread
  obtain ⟨rfl, hrest⟩ := Prod.mk.inj (some.inj hsome)
  obtain ⟨rfl, rfl⟩ := Prod.mk.inj hrest
  exact ⟨hlen, rfl, rfl, rfl, rfl, rfl⟩

/-- A library for evaluation, which reads headers without options as gopacket does and no
others. -/
def Gopacket.plain : Gopacket where
  ipv4 := plainIPv4
  ipv6 _ := none
  tcp := plainTCP
  udp data := if 8 ≤ data.length then some ⟨be16 data 0, be16 data 2⟩ else none
  icmpv4 data :=
    if 8 ≤ data.length then some ⟨data.getD 0 0, data.getD 1 0, be16 data 4, data.drop 8⟩ else none
  icmpv6 _ := false
  ipv4_fits {data _ _ _} hread := by
    obtain ⟨hlen, hihl, hsrc, hdst, rfl, _⟩ := plainIPv4_eq_some data hread
    refine ⟨hlen, hihl.ge, ?_, hsrc, hdst⟩
    rw [hihl, length_drop]
    omega
  ipv4_follows {data data' _ _ _ _ _ _} hread hread' hsame := by
    obtain ⟨_, _, _, _, rfl, rfl⟩ := plainIPv4_eq_some data hread
    obtain ⟨_, _, _, _, rfl, rfl⟩ := plainIPv4_eq_some data' hread'
    rw [hsame.be16 (i := 6) (by decide) (by decide), hsame.getD (i := 9) (by decide), length_drop,
      length_drop, hsame.1]
    exact ⟨rfl, rfl⟩
  ipv6_shorter h := absurd h.symm (some_ne_none _)
  tcp_fits {data h} hread := by
    obtain ⟨⟨hlen, _⟩, hsome⟩ := ite_none_right_eq_some.mp hread
    obtain rfl := some.inj hsome
    exact hlen
  udp_fits hread := (ite_none_right_eq_some.mp hread).1
  ipv4_reads {protocol layer srcIP dstIP payload} hlayer hsrc hdst hpayload := by
    obtain ⟨s₀, s₁, s₂, s₃, rfl⟩ := length_eq_four.mp hsrc
    obtain ⟨d₀, d₁, d₂, d₃, rfl⟩ := length_eq_four.mp hdst
    have hlayer' : plainLayer protocol = layer := by
      obtain ⟨rfl, rfl⟩ | ⟨rfl, rfl⟩ := hlayer <;> rfl
    simp [plainIPv4, packet28, be16, hpayload, hlayer']
  udp_reads hlen _ := if_pos hlen.ge
  icmpv4_reads {data} hlen := by
    rw [if_pos hlen.ge, drop_eq_nil_of_le hlen.le]

end Plain

/-! ### The decoder -/

/-- `decoder`: one struct for each type of header, the types of the headers of the packet that
was decoded last, and the port that a port rule has replaced. -/
structure Decoder where
  ip4 : IPv4
  ip6 : IPv6
  tcp : TCP
  udp : UDP
  icmp4 : ICMPv4
  decoded : List LayerType
  dnatOrigPort : UInt16
  deriving DecidableEq, Inhabited

variable (gp : Gopacket)

/-! ### Decoding -/

inductive Header where
  | ip4 (h : IPv4)
  | ip6 (h : IPv6)
  | tcp (h : TCP)
  | udp (h : UDP)
  | icmp4 (h : ICMPv4)
  | icmp6
  deriving DecidableEq

def Header.type : Header → LayerType
  | .ip4 _ => .ipv4
  | .ip6 _ => .ipv6
  | .tcp _ => .tcp
  | .udp _ => .udp
  | .icmp4 _ => .icmpv4
  | .icmp6 => .icmpv6

/-- The types for which the decoder has a struct. -/
def LayerType.known : LayerType → Bool
  | .ipv4 | .ipv6 | .tcp | .udp | .icmpv4 | .icmpv6 => true
  | _ => false

/-- Decode one header: the header, and the type and the bytes of what follows it. -/
def decodeHeader : LayerType → Bytes → Option (Header × LayerType × Bytes)
  | .ipv4, data => (gp.ipv4 data).map fun (h, next, payload) => (.ip4 h, next, payload)
  | .ipv6, data => (gp.ipv6 data).map fun (h, next, payload) => (.ip6 h, next, payload)
  | .tcp, data => (gp.tcp data).map fun h => (.tcp h, .zero, [])
  | .udp, data => (gp.udp data).map fun h => (.udp h, .zero, [])
  | .icmpv4, data => (gp.icmpv4 data).map fun h => (.icmp4 h, .zero, [])
  | .icmpv6, data => if gp.icmpv6 data then some (.icmp6, .zero, []) else none
  | _, _ => none

/-- Put a header into the struct of its type. -/
def Decoder.store (d : Decoder) (h : Header) : Decoder :=
  let d := { d with decoded := d.decoded ++ [h.type] }
  match h with
  | .ip4 h => { d with ip4 := h }
  | .ip6 h => { d with ip6 := h }
  | .tcp h => { d with tcp := h }
  | .udp h => { d with udp := h }
  | .icmp4 h => { d with icmp4 := h }
  | .icmp6 => d

/-- The loop of `DecodeLayers`, which ends without an error at a type for which there is no
struct. What a header that fails to decode leaves in its struct is not kept: nothing reads it
before the next packet is decoded. The first argument is more than the number of bytes. -/
def decodeFrom : ℕ → LayerType → Bytes → Decoder → Decoder × Bool
  | 0, _, _, d => (d, false)
  | n + 1, typ, data, d =>
    if typ.known then
      match decodeHeader gp typ data with
      | none => (d, false)
      | some (h, next, payload) =>
        if payload = [] then (d.store h, true) else decodeFrom n next payload (d.store h)
    else (d, true)

/-- `d.parser.DecodeLayers(packetData, &d.decoded)`; the second part is whether it succeeds. -/
def decodeLayers (d : Decoder) (packetData : Bytes) : Decoder × Bool :=
  decodeFrom gp (packetData.length + 1) .ipv4 packetData { d with decoded := [] }

/-- The destination port of the packet that was decoded last. -/
def Decoder.dstPort (d : Decoder) : UInt16 :=
  match d.decoded[1]? with
  | some LayerType.tcp => d.tcp.dstPort
  | some LayerType.udp => d.udp.dstPort
  | _ => 0

/-- `isValidPacket`: whether the packet is valid, and whether it is a fragment. -/
def isValidPacket (d : Decoder) (packetData : Bytes) : Decoder × Bool × Bool :=
  match decodeLayers gp d packetData with
  | (d, false) => (d, false, false)
  | (d, true) =>
    if 2 ≤ d.decoded.length then (d, true, false)
    else if d.decoded = [.ipv4] ∧ (d.ip4.moreFragments ∨ d.ip4.fragOffset ≠ 0) then (d, true, true)
    else (d, false, false)

/-! ### The headers of a packet -/

/-- The headers of a packet, and whether all of them could be decoded. -/
def headers : ℕ → LayerType → Bytes → List Header × Bool
  | 0, _, _ => ([], false)
  | n + 1, typ, data =>
    if typ.known then
      match decodeHeader gp typ data with
      | none => ([], false)
      | some (h, next, payload) =>
        if payload = [] then ([h], true)
        else (h :: (headers n next payload).1, (headers n next payload).2)
    else ([], true)

/-- **Decoding stores the headers of the packet**, each over the one before of its type. -/
theorem decodeFrom_eq (n : ℕ) (typ : LayerType) (data : Bytes) (d : Decoder) :
    decodeFrom gp n typ data d =
      ((headers gp n typ data).1.foldl Decoder.store d, (headers gp n typ data).2) := by
  induction n generalizing typ data d with
  | zero => rfl
  | succ n ih =>
    rw [decodeFrom, headers]
    by_cases hknown : typ.known
    · rw [if_pos hknown, if_pos hknown]
      rcases decodeHeader gp typ data with _ | x
      · rfl
      · by_cases hp : x.2.2 = []
        · simp [hp]
        · simp [hp, ih]
    · simp [hknown]

variable (d : Decoder)

@[simp] theorem Decoder.store_decoded (h : Header) :
    (d.store h).decoded = d.decoded ++ [h.type] := by
  cases h <;> rfl

@[simp] theorem Decoder.store_dnatOrigPort (h : Header) :
    (d.store h).dnatOrigPort = d.dnatOrigPort := by
  cases h <;> rfl

theorem foldl_store_decoded (hs : List Header) (d : Decoder) :
    (hs.foldl Decoder.store d).decoded = d.decoded ++ hs.map Header.type := by
  induction hs generalizing d with
  | nil => simp
  | cons h hs ih => simp [ih]

theorem foldl_store_dnatOrigPort (hs : List Header) (d : Decoder) :
    (hs.foldl Decoder.store d).dnatOrigPort = d.dnatOrigPort := by
  induction hs generalizing d with
  | nil => rfl
  | cons h hs ih => simp [ih]

@[simp] theorem decodeLayers_dnatOrigPort (data : Bytes) :
    (decodeLayers gp d data).1.dnatOrigPort = d.dnatOrigPort := by
  rw [decodeLayers, decodeFrom_eq]
  exact foldl_store_dnatOrigPort _ _

theorem Header.known_type (h : Header) : h.type.known = true := by
  cases h <;> rfl

variable {gp} {data : Bytes} {typ : LayerType} {payload : Bytes}

theorem decodeHeader_type {next : LayerType} {h : Header}
    (heq : decodeHeader gp typ data = some (h, next, payload)) : h.type = typ := by
  cases typ with
  | icmpv6 =>
    simp only [decodeHeader, ite_none_right_eq_some] at heq
    obtain ⟨rfl, _⟩ := Prod.mk.inj (some.inj heq.2)
    rfl
  | zero | all | other | fragment => nomatch heq
  | ipv4 | ipv6 | tcp | udp | icmpv4 =>
    obtain ⟨x, _, hx⟩ := map_eq_some_iff.mp heq
    obtain ⟨rfl, _⟩ := Prod.mk.inj hx
    rfl

variable {data : Bytes}

/-- What the first of several headers is, and where the others come from. -/
theorem headers_cons {n : ℕ} {h : Header} {hs : List Header}
    (heq : headers gp n typ data = (h :: hs, true)) :
    ∃ m next payload, n = m + 1 ∧ decodeHeader gp typ data = some (h, next, payload) ∧
      (payload = [] ∧ hs = [] ∨ payload ≠ [] ∧ headers gp m next payload = (hs, true)) := by
  rcases n with _ | m
  · nomatch heq
  · rw [headers] at heq
    split_ifs at heq with hknown
    · rcases hdec : decodeHeader gp typ data with _ | x
      · simp [hdec] at heq
      · obtain ⟨h', next, payload⟩ := x
        simp only [hdec] at heq
        split_ifs at heq with hp
        · obtain ⟨rfl, rfl⟩ := heq
          exact ⟨m, next, payload, rfl, rfl, .inl ⟨hp, rfl⟩⟩
        · simp only [Prod.mk.injEq, cons.injEq] at heq
          obtain ⟨⟨rfl, rfl⟩, htrue⟩ := heq
          exact ⟨m, next, payload, rfl, rfl, .inr ⟨hp, Prod.ext rfl htrue⟩⟩
    · nomatch heq

theorem headers_ne_nil {n : ℕ} {hs : List Header}
    (hknown : typ.known = true) (h : headers gp n typ data = (hs, true)) : hs ≠ [] := by
  rintro rfl
  rcases n with _ | n
  · nomatch h
  · rw [headers, if_pos hknown] at h
    rcases hdec : decodeHeader gp typ data with _ | x
    · simp [hdec] at h
    · simp only [hdec] at h
      by_cases hp : x.2.2 = [] <;> simp [hp] at h

variable {d d' : Decoder} (h : decodeLayers gp d data = (d', true))

include h

theorem decodeLayers_ok : ∃ ip4 next payload hs, gp.ipv4 data = some (ip4, next, payload) ∧
      d' = (Header.ip4 ip4 :: hs).foldl Decoder.store { d with decoded := [] } ∧
      (payload = [] ∧ hs = [] ∨ payload ≠ [] ∧ headers gp data.length next payload = (hs, true)) := by
  rw [decodeLayers, decodeFrom_eq] at h
  obtain ⟨hd', hok⟩ := Prod.mk.inj h
  cases hhs : headers gp (data.length + 1) .ipv4 data with
  | mk hs b =>
    rw [hhs] at hd' hok
    obtain rfl : b = true := hok
    rcases hs with _ | ⟨h, hs⟩
    · exact absurd rfl (headers_ne_nil rfl hhs)
    · obtain ⟨m, next, payload, hm, hdec, hrest⟩ := headers_cons hhs
      obtain rfl := Nat.succ.inj hm
      obtain ⟨⟨ip4, next', payload'⟩, hip4, hx⟩ := map_eq_some_iff.mp hdec
      simp only [Prod.mk.injEq] at hx
      obtain ⟨rfl, rfl, rfl⟩ := hx
      exact ⟨ip4, next', payload', hs, hip4, hd'.symm, hrest⟩

theorem decodeLayers_first : d'.decoded[0]? = some .ipv4 := by
  obtain ⟨ip4, _, _, hs, _, rfl, _⟩ := decodeLayers_ok h
  simp [foldl_store_decoded, Header.type]

variable {layer : LayerType}

theorem isValidPacket_of_decodeLayers (hlayer : d'.decoded[1]? = some layer) :
    isValidPacket gp d data = (d', true, false) := by
  have hlen : 2 ≤ d'.decoded.length := (List.getElem?_eq_some_iff.mp hlayer).1
  rw [isValidPacket, h]
  exact if_pos hlen

omit h

theorem decodeLayers_of_isValidPacket {fragment : Bool}
    (h : isValidPacket gp d data = (d', true, fragment)) : decodeLayers gp d data = (d', true) := by
  unfold isValidPacket at h
  cases hdec : decodeLayers gp d data with
  | mk d₁ ok =>
    rw [hdec] at h
    cases ok with
    | false => simp at h
    | true =>
      simp only at h
      split at h
      · rw [(Prod.mk.inj h).1]
      split at h
      · rw [(Prod.mk.inj h).1]
      · simp at h

/-- A valid packet that is no fragment has two headers. -/
theorem isValidPacket_whole (h : isValidPacket gp d data = (d', true, false)) :
    ∃ layer, d'.decoded[1]? = some layer ∧ layer.known = true := by
  have hdec := decodeLayers_of_isValidPacket h
  simp only [isValidPacket, hdec] at h
  obtain ⟨ip4, _, _, hs, _, rfl, _⟩ := decodeLayers_ok hdec
  rcases hs with _ | ⟨header, hs⟩
  · split_ifs at h <;> simp_all
  · exact ⟨header.type, by simp [foldl_store_decoded], header.known_type⟩

/-- The types of the headers above IP. -/
def LayerType.isTransport : LayerType → Bool
  | .tcp | .udp | .icmpv4 | .icmpv6 => true
  | _ => false

theorem Decoder.store_ip4 {h : Header} (ht : h.type.isTransport = true) :
    (d.store h).ip4 = d.ip4 := by
  cases h with
  | ip4 h => nomatch ht
  | _ => rfl

theorem decodeHeader_transport {next : LayerType} {h : Header}
    (htyp : typ.isTransport = true) (heq : decodeHeader gp typ data = some (h, next, payload)) :
    payload = [] := by
  cases typ with
  | icmpv6 =>
    simp only [decodeHeader, ite_none_right_eq_some] at heq
    exact (Prod.mk.inj (Prod.mk.inj (some.inj heq.2)).2).2.symm
  | tcp | udp | icmpv4 =>
    obtain ⟨x, _, hx⟩ := map_eq_some_iff.mp heq
    exact (Prod.mk.inj (Prod.mk.inj hx).2).2.symm
  | ipv4 | ipv6 | zero | all | other | fragment => nomatch htyp

/-- **A transport header in second place** is read from the payload of the first IP header, and
is the last header of the packet. -/
theorem decodeLayers_transport
    (h : decodeLayers gp d data = (d', true)) (hlayer : d'.decoded[1]? = some layer)
    (htransport : layer.isTransport = true) :
    ∃ ip4 payload header next, gp.ipv4 data = some (ip4, layer, payload) ∧
      decodeHeader gp layer payload = some (header, next, []) ∧
      d' = ((Decoder.store { d with decoded := [] } (.ip4 ip4)).store header) ∧ d'.ip4 = ip4 := by
  obtain ⟨ip4, second, payload, hs, hip4, rfl, hrest⟩ := decodeLayers_ok h
  rw [foldl_store_decoded] at hlayer
  rcases hs with _ | ⟨header, hs⟩
  · simp at hlayer
  · have htype : header.type = layer := by simpa using hlayer
    obtain ⟨_, hnil⟩ | ⟨_, hheaders⟩ := hrest
    · nomatch hnil
    · obtain ⟨m, next, payload', _, hdec, hend⟩ := headers_cons hheaders
      obtain rfl : second = layer := (decodeHeader_type hdec).symm.trans htype
      obtain rfl := decodeHeader_transport htransport hdec
      obtain ⟨_, rfl⟩ | ⟨hne, _⟩ := hend
      · exact ⟨ip4, payload, header, next, hip4, hdec, rfl, Decoder.store_ip4 (htype ▸ htransport)⟩
      · exact absurd rfl hne

/-- **A plain packet is decoded** into its two headers. -/
theorem decodeLayers_packet28 {protocol : UInt8} {srcIP dstIP : Bytes} {header : Header}
    (hlayer : protocol = 1 ∧ layer = .icmpv4 ∨ protocol = 17 ∧ layer = .udp)
    (hsrc : srcIP.length = 4) (hdst : dstIP.length = 4) (hpayload : payload.length = 8)
    (hheader : decodeHeader gp layer payload = some (header, .zero, [])) (d : Decoder) :
    decodeLayers gp d (packet28 protocol srcIP dstIP payload) =
      ((Decoder.store { d with decoded := [] } (.ip4 ⟨5, false, 0, protocol, srcIP, dstIP⟩)).store
        header, true) := by
  have hne : payload ≠ [] := ne_nil_of_length_eq_add_one hpayload
  have hlen : (packet28 protocol srcIP dstIP payload).length = 27 + 1 := by
    simp [packet28, hsrc, hdst, hpayload]
  have hknown : layer.known = true := decodeHeader_type hheader ▸ header.known_type
  have hfirst : decodeHeader gp .ipv4 (packet28 protocol srcIP dstIP payload) =
      some (.ip4 ⟨5, false, 0, protocol, srcIP, dstIP⟩, layer, payload) := by
    rw [decodeHeader, gp.ipv4_reads hlayer hsrc hdst hpayload]
    rfl
  rw [decodeLayers, hlen, decodeFrom, hfirst]
  simp only [if_neg hne]
  rw [decodeFrom, if_pos hknown, hheader]
  rfl

/-! ### Lengths -/

/-- What the filter can rely on in a packet with two headers: they fit into it. -/
structure Parsed (data : Bytes) (d : Decoder) (layer : LayerType) : Prop where
  first : d.decoded[0]? = some .ipv4
  second : d.decoded[1]? = some layer
  known : layer.known = true
  length : 20 ≤ data.length
  header : layer = .tcp ∨ layer = .udp →
    20 ≤ d.ip4.ihl * 4 ∧ d.ip4.ihl * 4 + 8 ≤ data.length
  options : layer = .tcp →
    d.ip4.ihl * 4 + 20 + (d.tcp.options.map TCPOption.size).sum ≤ data.length ∧
      d.ip4.srcIP.length = 4 ∧ d.ip4.dstIP.length = 4

theorem Parsed.of_length {data' : Bytes} {d : Decoder}
    (h : Parsed data d layer) (hlen : data.length = data'.length) : Parsed data' d layer :=
  ⟨h.first, h.second, h.known, hlen ▸ h.length, hlen ▸ h.header, hlen ▸ h.options⟩

theorem parsed_of_decodeLayers {d₀ d : Decoder}
    (h : decodeLayers gp d₀ data = (d, true)) (hlayer : d.decoded[1]? = some layer) :
    Parsed data d layer := by
  obtain ⟨ip4, second, payload, hs, hip4, hd, _⟩ := decodeLayers_ok h
  obtain ⟨hdata, hihl, hfits, hsrc, hdst⟩ := gp.ipv4_fits hip4
  have hdecoded : d.decoded = .ipv4 :: hs.map Header.type := by
    rw [hd, foldl_store_decoded]
    rfl
  rcases hs with _ | ⟨header, hs⟩
  · simp [hdecoded] at hlayer
  · obtain rfl : header.type = layer := by simpa [hdecoded] using hlayer
    -- the fields of a transport header are read from the payload of the first IP header
    have htransport : header.type.isTransport = true → d.ip4 = ip4 ∧ ∃ next x,
        decodeHeader gp header.type payload = some (x, next, []) ∧
        d = (Decoder.store { d₀ with decoded := [] } (.ip4 ip4)).store x := by
      intro ht
      obtain ⟨ip4', payload', x, next, hip4', hx, hd', hip⟩ := decodeLayers_transport h hlayer ht
      obtain ⟨rfl, heq⟩ := Prod.mk.inj (some.inj (hip4.symm.trans hip4'))
      obtain ⟨_, rfl⟩ := Prod.mk.inj heq
      exact ⟨hip, next, x, hx, hd'⟩
    refine ⟨by simp [hdecoded], hlayer, header.known_type, hdata, ?_, ?_⟩
    · rintro (ht | ht)
      · obtain ⟨rfl, next, x, hx, -⟩ := htransport (by rw [ht]; rfl)
        rw [ht] at hx
        obtain ⟨tcp, htcp, -⟩ := map_eq_some_iff.mp hx
        have hoptions := gp.tcp_fits htcp
        omega
      · obtain ⟨rfl, next, x, hx, -⟩ := htransport (by rw [ht]; rfl)
        rw [ht] at hx
        obtain ⟨udp, hudp, -⟩ := map_eq_some_iff.mp hx
        have hlength := gp.udp_fits hudp
        omega
    · intro ht
      obtain ⟨hip, next, x, hx, hd'⟩ := htransport (by rw [ht]; rfl)
      rw [ht] at hx
      obtain ⟨tcp, htcp, hx⟩ := map_eq_some_iff.mp hx
      obtain ⟨rfl, _⟩ := Prod.mk.inj hx
      have hoptions := gp.tcp_fits htcp
      have hstored : d.tcp = tcp := by rw [hd']; rfl
      rw [hip, hstored, hsrc, hdst]
      simp only [length_take, length_drop]
      omega

/-- **A packet keeps its second header** when it is decoded again after a change that leaves the
first ten bytes and the length alone. -/
theorem decoded_second {d₀ d d₀' d' : Decoder} {data' : Bytes}
    (h : decodeLayers gp d₀ data = (d, true)) (hlayer : d.decoded[1]? = some layer)
    (hsame : Wire.Agree (· < 10) data data') (h' : decodeLayers gp d₀' data' = (d', true)) :
    d'.decoded[1]? = some layer := by
  obtain ⟨ip4, next, payload, hs, hip4, rfl, hrest⟩ := decodeLayers_ok h
  obtain ⟨ip4', next', payload', hs', hip4', rfl, hrest'⟩ := decodeLayers_ok h'
  obtain ⟨rfl, hpayload⟩ := gp.ipv4_follows hip4 hip4' hsame
  rw [foldl_store_decoded] at hlayer ⊢
  rcases hs with _ | ⟨header, hs⟩
  · simp at hlayer
  · obtain rfl : header.type = layer := by simpa using hlayer
    obtain ⟨_, hnil⟩ | ⟨hne, hheaders⟩ := hrest
    · nomatch hnil
    obtain ⟨_, _, _, _, hdec, _⟩ := headers_cons hheaders
    have htype : header.type = next' := decodeHeader_type hdec
    obtain ⟨hnil', _⟩ | ⟨_, hheaders'⟩ := hrest'
    · have hzero : payload = [] := by
        rw [← length_eq_zero_iff, ← hpayload, hnil']
        rfl
      exact absurd hzero hne
    rw [← htype] at hheaders'
    rcases hs' with _ | ⟨header', hs'⟩
    · exact absurd rfl (headers_ne_nil header.known_type hheaders')
    · obtain ⟨_, _, _, _, hdec', _⟩ := headers_cons hheaders'
      have htype' : header'.type = header.type := decodeHeader_type hdec'
      simp [htype']

end Netbird.Firewall
