/-
A packet in a packet.

The decoder has one struct for IPv4 headers, and an IPv4 header that is the payload of another one
is decoded into the same struct.  So the addresses that `filterInbound` goes by are those of the
last IPv4 header of the packet, and not those of the packet that it was given.

* `extractIPs_outermost_iff` — the addresses are those of the packet exactly if the last header has
  them too.
-/
import Netbird.Firewall.Replies

namespace Netbird.Firewall

open Conntrack List Header

/-- The header, if it is one of IPv4. -/
def Header.ip4? : Header → Option IPv4
  | .ip4 h => some h
  | _ => none

def lastIPv4 (gp : Gopacket) (packetData : Bytes) : Option IPv4 :=
  ((headers gp (packetData.length + 1) .ipv4 packetData).1.filterMap Header.ip4?).getLast?

/-- Bytes 12 to 15 and 16 to 19 of a packet: the addresses of its outermost header. -/
def outermostIPs (packetData : Bytes) : Bytes × Bytes :=
  ((packetData.drop 12).take 4, (packetData.drop 16).take 4)

/-- The struct holds the last header that was decoded into it. -/
theorem foldl_store_ip4 (hs : List Header) (d : Decoder) :
    (hs.foldl Decoder.store d).ip4 = (hs.filterMap Header.ip4?).getLast?.getD d.ip4 := by
  induction hs generalizing d with
  | nil => rfl
  | cons h hs ih =>
    rw [foldl_cons, ih]
    cases h with
    | ip4 h => simp [ip4?, Decoder.store, getLast?_cons]
    | _ => simp [ip4?, Decoder.store]

variable {gp : Gopacket} {d₀ d : Decoder} {packetData : Bytes}

theorem length_of_decodeHeader {typ next : LayerType} {data payload : Bytes} {h : IPv4}
    (hdec : decodeHeader gp typ data = some (.ip4 h, next, payload)) :
    h.srcIP.length = 4 ∧ h.dstIP.length = 4 := by
  obtain rfl : LayerType.ipv4 = typ := decodeHeader_type hdec
  obtain ⟨⟨h', next', payload'⟩, hip4, heq⟩ := Option.map_eq_some_iff.mp hdec
  obtain rfl : h' = h := ip4.inj (Prod.mk.inj heq).1
  obtain ⟨hlen, _, _, hsrc, hdst⟩ := gp.ipv4_fits hip4
  rw [hsrc, hdst]
  simp only [length_take, length_drop]
  omega

/-- Every IPv4 header has addresses of four bytes. -/
theorem length_of_mem_headers {n : ℕ} {typ : LayerType} {data : Bytes} {h : IPv4}
    (hmem : Header.ip4 h ∈ (headers gp n typ data).1) :
    h.srcIP.length = 4 ∧ h.dstIP.length = 4 := by
  induction n generalizing typ data with
  | zero => cases hmem
  | succ n ih =>
    rw [headers] at hmem
    split_ifs at hmem with hknown
    · rcases hdec : decodeHeader gp typ data with _ | x
      · simp [hdec] at hmem
      · obtain ⟨header, next, payload⟩ := x
        simp only [hdec] at hmem
        split_ifs at hmem with hnil
        · obtain rfl := mem_singleton.mp hmem
          exact length_of_decodeHeader hdec
        · obtain rfl | hmem := mem_cons.mp hmem
          · exact length_of_decodeHeader hdec
          · exact ih hmem
    · cases hmem

/-- **The addresses that the filter goes by** are those of the last IPv4 header. -/
theorem extractIPs_eq {fragment : Bool}
    (hvalid : isValidPacket gp d₀ packetData = (d, true, fragment)) :
    ∃ h, lastIPv4 gp packetData = some h ∧ extractIPs d = .ok (h.srcIP, h.dstIP) := by
  have hdec := decodeLayers_of_isValidPacket hvalid
  have hfirst := decodeLayers_first hdec
  obtain ⟨ips, hips, rfl⟩ := Manager.returns_extractIPs hfirst
  rw [decodeLayers, decodeFrom_eq] at hdec
  have hd := (Prod.mk.inj hdec).1
  rcases hlast : lastIPv4 gp packetData with _ | h
  · -- the first header is one of IPv4
    rw [lastIPv4, getLast?_eq_none_iff, filterMap_eq_nil_iff] at hlast
    rw [← hd, foldl_store_decoded] at hfirst
    obtain ⟨header, hheader, htype⟩ : ∃ header ∈
        (headers gp (packetData.length + 1) .ipv4 packetData).1, header.type = .ipv4 := by
      have hmem := mem_of_getElem? hfirst
      simpa using hmem
    cases header with
    | ip4 h => cases hlast _ hheader
    | _ => cases htype
  · have hip4 : d.ip4 = h := by
      rw [lastIPv4] at hlast
      rw [← hd, foldl_store_ip4, hlast]
      rfl
    have hmem : ip4 h ∈ (headers gp (packetData.length + 1) .ipv4 packetData).1 := by
      obtain ⟨header, hheader, heq⟩ := mem_filterMap.mp (mem_of_getLast? hlast)
      cases header with
      | ip4 h' => exact Option.some.inj heq ▸ hheader
      | _ => cases heq
    obtain ⟨hsrc, hdst⟩ := length_of_mem_headers hmem
    refine ⟨h, rfl, ?_⟩
    rw [hips, hip4, addrFromSlice, addrFromSlice, if_pos (.inl hsrc), if_pos (.inl hdst)]

/-- **The packet is judged by its own addresses** exactly if its last IPv4 header has them. -/
theorem extractIPs_outermost_iff (gp : Gopacket) (d₀ d : Decoder) (packetData : Bytes)
    (fragment : Bool) (hvalid : isValidPacket gp d₀ packetData = (d, true, fragment)) :
    extractIPs d = .ok (outermostIPs packetData) ↔
      (lastIPv4 gp packetData).map (fun h => (h.srcIP, h.dstIP)) =
        some (outermostIPs packetData) := by
  obtain ⟨h, hlast, hips⟩ := extractIPs_eq hvalid
  rw [hips, hlast]
  simp

/-- A UDP packet from 10.0.0.3 to 10.0.0.1 in a packet from 10.0.0.2 to 10.0.0.1. -/
def tunnelled : Bytes :=
  [0x45, 0, 0, 48, 0, 0, 0, 0, 64, 4, 0, 0, 10, 0, 0, 2, 10, 0, 0, 1] ++
    packet28 17 [10, 0, 0, 3] [10, 0, 0, 1] [7, 208, 3, 232, 0, 8, 0, 0]

/-- The filter accepts packets from 10.0.0.3 only, and lets in a packet from 10.0.0.2. -/
theorem tunnelled_judged_by_inner : (isValidPacket .plain default tunnelled).2 = (true, false) ∧
      outermostIPs tunnelled = ([10, 0, 0, 2], [10, 0, 0, 1]) ∧
      (extractIPs (isValidPacket .plain default tunnelled).1).toOption =
        some ([10, 0, 0, 3], [10, 0, 0, 1]) ∧
      (System.mk System.acceptFilter []).drops (0, .inbound 0 tunnelled 48) = some false ∧
      (System.mk System.acceptFilter []).drops
        (0, .inbound 0 (packet28 17 [10, 0, 0, 2] [10, 0, 0, 1]
          [7, 208, 3, 232, 0, 8, 0, 0]) 28) = some true := by
  refine ⟨by decide +kernel, by decide +kernel, by decide +kernel, by decide +kernel,
    by decide +kernel⟩

theorem answer_judged_by_outermost :
    (isValidPacket .plain default System.udpAnswer).2 = (true, false) ∧
      (extractIPs (isValidPacket .plain default System.udpAnswer).1 =
          .ok (outermostIPs System.udpAnswer) ↔
        (lastIPv4 .plain System.udpAnswer).map (fun h => (h.srcIP, h.dstIP)) =
          some (outermostIPs System.udpAnswer)) := by
  have hvalid : (isValidPacket .plain default System.udpAnswer).2 = (true, false) := by
    decide +kernel
  exact ⟨hvalid, extractIPs_outermost_iff .plain default _ System.udpAnswer false
    (Prod.ext rfl hvalid)⟩

end Netbird.Firewall
