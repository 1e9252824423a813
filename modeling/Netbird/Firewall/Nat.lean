/-
Rewriting of packets (`uspfilter/nat.go`, and the MSS clamping of `uspfilter/filter.go`).

Addresses and ports are replaced in the bytes of a packet and the checksums adjusted.  Offsets
are computed from the length of the IP header that was decoded; every read and write of the
packet is checked against its length, so a function that does not panic stays in range.

* `returns_translateInboundPortDNAT` — a port rule is applied to packets for its port only, and
  leaves that port in the decoder.
-/
import Netbird.Firewall.Rules
import Netbird.Lib.Returns

namespace Netbird.Firewall

open Wire List Checked

/-! ### Checksums -/

/-- The end of the checksum functions: carries are added once, and one more is carried over. -/
def foldOnce (sum : UInt32) : UInt16 :=
  let sum := (sum &&& (0xFFFF : UInt32)) + (sum >>> 16)
  let sum := if 0xFFFF < sum then sum + 1 else sum
  ~~~ sum.toUInt16

/-- The positions `lo`, `lo + 2`, … of words before the end of `n` bytes. -/
def wordPositions (lo n : ℕ) : List ℕ := List.range' lo ((n - lo) / 2) 2

/-- The last byte of an odd number of bytes, as the high byte of a word. -/
def oddByte (data : Bytes) : UInt32 :=
  if data.length % 2 = 1 then (data.getLastD 0).toUInt32 <<< 8 else 0

def ipv4Checksum (header : Bytes) : Except Panic UInt16 := do
  if header.length < 20 then
    return 0
  let sum1 ← sumAt header [0, 4, 8, 14, 18]
  let sum2 ← sumAt header [2, 6, 12, 16]
  let rest ← sumAt header (wordPositions 20 header.length)
  return foldOnce (sum1 + sum2 + rest + oddByte header)

/-- `icmpChecksum`: sixteen bytes at a time with four sums, and then the rest. -/
def icmpChecksum (data : Bytes) : Except Panic UInt16 := do
  let blocks := List.range' 0 (data.length / 16) 16
  let sum1 ← sumAt data (blocks.flatMap fun i => [i, i + 8])
  let sum2 ← sumAt data (blocks.flatMap fun i => [i + 2, i + 10])
  let sum3 ← sumAt data (blocks.flatMap fun i => [i + 4, i + 12])
  let sum4 ← sumAt data (blocks.flatMap fun i => [i + 6, i + 14])
  let rest ← sumAt data (wordPositions (16 * (data.length / 16)) data.length)
  return foldOnce (sum1 + sum2 + sum3 + sum4 + rest + oddByte data)

/-- The sum of the words of `bytes`, with `word` and `last` applied to the words and to a last
byte without a partner. -/
def sumWords (word : UInt16 → UInt16) (last : UInt8 → UInt8) : Bytes → UInt32
  | [] => 0
  | [b] => (last b).toUInt32 <<< 8
  | hi :: lo :: rest => (word (be16 [hi, lo] 0)).toUInt32 + sumWords word last rest

def incrementalUpdate (oldChecksum : UInt16) (oldBytes newBytes : Bytes) : UInt16 :=
  foldOnce ((~~~ oldChecksum).toUInt32 + sumWords (~~~ ·) (~~~ ·) oldBytes +
    sumWords id id newBytes)

/-! ### Rewriting addresses -/

variable (packetData : Bytes)

def updateTCPChecksum (ipHeaderLen : ℕ) (oldIP newIP : Bytes) : Except Panic Bytes := do
  if packetData.length < ipHeaderLen + 18 then
    return packetData
  let checksumOffset := ipHeaderLen + 16
  let oldChecksum ← getUint16 packetData checksumOffset
  putUint16 packetData checksumOffset (incrementalUpdate oldChecksum oldIP newIP)

def updateUDPChecksum (ipHeaderLen : ℕ) (oldIP newIP : Bytes) : Except Panic Bytes := do
  if packetData.length < ipHeaderLen + 8 then
    return packetData
  let checksumOffset := ipHeaderLen + 6
  let oldChecksum ← getUint16 packetData checksumOffset
  if oldChecksum = 0 then
    return packetData
  putUint16 packetData checksumOffset (incrementalUpdate oldChecksum oldIP newIP)

/-- `updateICMPChecksum`; `icmpData` is a slice of the packet, and written through. -/
def updateICMPChecksum (ipHeaderLen : ℕ) : Except Panic Bytes := do
  if packetData.length < ipHeaderLen + 8 then
    return packetData
  let packetData ← putUint16 packetData (ipHeaderLen + 2) 0
  let icmpData ← slice packetData ipHeaderLen packetData.length
  let checksum ← icmpChecksum icmpData
  putUint16 packetData (ipHeaderLen + 2) checksum

/-- The switch of `rewritePacketIP` over the transport layer. -/
def updateChecksum (layer : LayerType) (packetData : Bytes) (ipHeaderLen : ℕ)
    (oldIP newIP : Bytes) : Except Panic Bytes :=
  match layer with
  | .tcp => updateTCPChecksum packetData ipHeaderLen oldIP newIP
  | .udp => updateUDPChecksum packetData ipHeaderLen oldIP newIP
  | .icmpv4 => updateICMPChecksum packetData ipHeaderLen
  | _ => pure packetData

/-- The outcome of a rewrite: the packet, and the text of the error if there is one. -/
abbrev Rewrite := Except Panic (Bytes × Option String)

def rewritePacketIP (d : Decoder) (newIP : Bytes) (ipOffset : ℕ) : Rewrite := do
  if newIP.length ≠ 4 then
    return (packetData, some "only IPv4 is supported for DNAT")
  let oldIP ← slice packetData ipOffset (ipOffset + 4)
  let packetData ← write packetData ipOffset newIP
  let ipHeaderLen := d.ip4.ihl * 4
  if ipHeaderLen < 20 ∨ packetData.length < ipHeaderLen then
    return (packetData, some "invalid IP header length")
  let packetData ← putUint16 packetData 10 0
  let ipChecksum ← ipv4Checksum (← slice packetData 0 ipHeaderLen)
  let packetData ← putUint16 packetData 10 ipChecksum
  if d.decoded.length ≤ 1 then
    return (packetData, none)
  let layer ← index d.decoded 1
  let packetData ← updateChecksum layer packetData ipHeaderLen oldIP newIP
  return (packetData, none)

/-! ### Rewriting ports -/

def rewriteTCPPort (d : Decoder) (newPort : UInt16) (portOffset : ℕ) : Rewrite := do
  let ipHeaderLen := d.ip4.ihl * 4
  if ipHeaderLen < 20 ∨ packetData.length < ipHeaderLen then
    return (packetData, some "invalid IP header length")
  let tcpStart := ipHeaderLen
  if packetData.length < tcpStart + 4 then
    return (packetData, some "packet too short for TCP header")
  let portStart := tcpStart + portOffset
  let oldPort ← getUint16 packetData portStart
  let packetData ← putUint16 packetData portStart newPort
  if tcpStart + 18 ≤ packetData.length then
    let checksumOffset := tcpStart + 16
    let oldChecksum ← getUint16 packetData checksumOffset
    let newChecksum := incrementalUpdate oldChecksum (bytes16 oldPort) (bytes16 newPort)
    let packetData ← putUint16 packetData checksumOffset newChecksum
    return (packetData, none)
  return (packetData, none)

def rewriteUDPPort (d : Decoder) (newPort : UInt16) (portOffset : ℕ) : Rewrite := do
  let ipHeaderLen := d.ip4.ihl * 4
  if ipHeaderLen < 20 ∨ packetData.length < ipHeaderLen then
    return (packetData, some "invalid IP header length")
  let udpStart := ipHeaderLen
  if packetData.length < udpStart + 8 then
    return (packetData, some "packet too short for UDP header")
  let portStart := udpStart + portOffset
  let oldPort ← getUint16 packetData portStart
  let packetData ← putUint16 packetData portStart newPort
  let checksumOffset := udpStart + 6
  if udpStart + 8 ≤ packetData.length then
    let oldChecksum ← getUint16 packetData checksumOffset
    if oldChecksum ≠ 0 then
      let newChecksum := incrementalUpdate oldChecksum (bytes16 oldPort) (bytes16 newPort)
      let packetData ← putUint16 packetData checksumOffset newChecksum
      return (packetData, none)
  return (packetData, none)

/-! ### Clamping the MSS option -/

/-- `uint32(b[i])<<8 | uint32(b[i+1])`. -/
def pairAt (b : Bytes) (i : ℕ) : Except Panic UInt32 := do
  let hi ← index b i
  let lo ← index b (i + 1)
  return hi.toUInt32 <<< 8 ||| lo.toUInt32

/-- The sum of the pairs of bytes at the positions. -/
def sumPairs (b : Bytes) (positions : List ℕ) : Except Panic UInt32 :=
  positions.foldlM (fun sum i => do return sum + (← pairAt b i)) 0

/-- `for sum > 0xFFFF { sum = (sum & 0xFFFF) + (sum >> 16) }`, which ends after two rounds. -/
def foldCarries (sum : UInt32) : UInt32 :=
  let fold (sum : UInt32) : UInt32 :=
    if 0xFFFF < sum then (sum &&& (0xFFFF : UInt32)) + (sum >>> 16) else sum
  fold (fold sum)

/-- `recalculateTCPChecksum`; `tcpLayer` is a slice of the packet, and written through. -/
def recalculateTCPChecksum (d : Decoder) (tcpHeaderStart : ℕ) : Except Panic Bytes := do
  let _ ← slice packetData tcpHeaderStart packetData.length
  let tcpLength := packetData.length - tcpHeaderStart
  let packetData ← setByte packetData (tcpHeaderStart + 16) 0
  let packetData ← setByte packetData (tcpHeaderStart + 17) 0
  let tcpLayer ← slice packetData tcpHeaderStart packetData.length
  let src ← sumPairs d.ip4.srcIP [0, 2]
  let dst ← sumPairs d.ip4.dstIP [0, 2]
  let pseudoSum := src + dst + d.ip4.protocol.toUInt32 + UInt32.ofNat tcpLength
  let sum ← sumPairs tcpLayer (wordPositions 0 tcpLength)
  let sum := foldCarries (pseudoSum + sum + oddByte tcpLayer)
  putUint16 packetData (tcpHeaderStart + 16) (~~~ sum.toUInt16)

def updateMSSOption (mssClampValue : UInt16) (packetData : Bytes) (d : Decoder)
    (mssOptionIndex ipHeaderSize : ℕ) : Except Panic Bytes := do
  let before ← (List.range mssOptionIndex).mapM (index d.tcp.options)
  let optOffset := ipHeaderSize + 20 + (before.map TCPOption.size).sum
  let packetData ← putUint16 packetData (optOffset + 2) mssClampValue
  recalculateTCPChecksum packetData d ipHeaderSize

/-- `clampTCPMSS`: the first MSS option above the value is lowered to it. -/
def clampTCPMSS (mssClampValue : UInt16) (packetData : Bytes) (d : Decoder) : Except Panic Bytes :=
  let tooLarge (o : TCPOption) : Bool :=
    o.kind = 2 ∧ o.data.length = 2 ∧ mssClampValue < be16 o.data 0
  if d.tcp.syn = false then pure packetData
  else
    match d.tcp.options.findIdx? tooLarge with
    | none => pure packetData
    | some mssOptionIndex =>
      let ipHeaderSize := d.ip4.ihl * 4
      if ipHeaderSize < 20 then pure packetData
      else updateMSSOption mssClampValue packetData d mssOptionIndex ipHeaderSize

/-! ### Mappings of addresses -/

structure BiDNATMap where
  forward : AList fun _ : Bytes => Bytes
  reverse : AList fun _ : Bytes => Bytes

namespace BiDNATMap

def set (b : BiDNATMap) (original translated : Bytes) : BiDNATMap :=
  ⟨b.forward.insert original translated, b.reverse.insert translated original⟩

def delete (b : BiDNATMap) (original : Bytes) : BiDNATMap :=
  match b.forward.lookup original with
  | none => b
  | some translated => ⟨b.forward.erase original, b.reverse.erase translated⟩

end BiDNATMap

/-- The fields of the `Manager` for mappings of addresses. -/
structure Dnat where
  enabled : Bool
  mappings : AList fun _ : Bytes => Bytes
  biMap : Option BiDNATMap

namespace Dnat

/-- `AddInternalDNATMapping`; an invalid address has no bytes. -/
def addInternalDNATMapping (n : Dnat) (isLocalIP : Bytes → Bool)
    (originalAddr translatedAddr : Bytes) : Except String Dnat :=
  if originalAddr = [] then .error "invalid original IP address"
  else if translatedAddr = [] then .error "invalid translated IP address"
  else if isLocalIP translatedAddr then
    .error ("cannot map to local IP: " ++ Addr.addrText translatedAddr "")
  else
    let (mappings, biMap) : (AList fun _ : Bytes => Bytes) × BiDNATMap :=
      match n.biMap with
      | none => (∅, ⟨∅, ∅⟩)
      | some biMap => (n.mappings, biMap)
    let mappings := mappings.insert originalAddr translatedAddr
    .ok { enabled := if mappings.keys.length = 1 then true else n.enabled
          mappings := mappings
          biMap := some (biMap.set originalAddr translatedAddr) }

def removeInternalDNATMapping (n : Dnat) (originalAddr : Bytes) :
    Except Panic (Except String Dnat) :=
  match n.mappings.lookup originalAddr with
  | none => .ok (.error ("mapping not found for: " ++ Addr.addrText originalAddr ""))
  | some _ => do
    let mappings := n.mappings.erase originalAddr
    let biMap ← deref n.biMap
    return .ok { enabled := if mappings.keys = [] then false else n.enabled
                 mappings := mappings
                 biMap := some (biMap.delete originalAddr) }

def getDNATTranslation (n : Dnat) (addr : Bytes) : Except Panic (Option Bytes) :=
  if n.enabled then do return (← deref n.biMap).forward.lookup addr else pure none

def findReverseDNATMapping (n : Dnat) (addr : Bytes) : Except Panic (Option Bytes) :=
  if n.enabled then do return (← deref n.biMap).reverse.lookup addr else pure none

def addrAt (packetData : Bytes) (offset : ℕ) : Except Panic Bytes :=
  [offset, offset + 1, offset + 2, offset + 3].mapM (index packetData)

/-- The body of the two translations: the address at the offset is looked up and replaced. -/
def translate (find : Bytes → Except Panic (Option Bytes)) (n : Dnat) (packetData : Bytes)
    (d : Decoder) (offset : ℕ) : Except Panic (Bytes × Bool) := do
  if ! n.enabled then
    return (packetData, false)
  let addr ← addrAt packetData offset
  match ← find addr with
  | none => return (packetData, false)
  | some newIP =>
    let (packetData, err) ← rewritePacketIP packetData d newIP offset
    return (packetData, err.isNone)

/-- `translateOutboundDNAT`: the packet and whether it was translated. -/
def translateOutboundDNAT (n : Dnat) (packetData : Bytes) (d : Decoder) :
    Except Panic (Bytes × Bool) :=
  translate n.getDNATTranslation n packetData d 16

def translateInboundReverse (n : Dnat) (packetData : Bytes) (d : Decoder) :
    Except Panic (Bytes × Bool) :=
  translate n.findReverseDNATMapping n packetData d 12

end Dnat

/-! ### Rules for ports -/

structure PortDNATRule where
  protocol : LayerType
  origPort : UInt16
  targetPort : UInt16
  targetIP : Bytes

/-- The fields of the `Manager` for port rules. -/
structure PortDnat where
  enabled : Bool
  rules : List PortDNATRule

namespace PortDnat

/-- `applyPortRule`: the packet, the decoder, and whether a rule was applied. -/
def applyPortRule (packetData : Bytes) (d : Decoder) (srcIP dstIP : Bytes) (port : UInt16)
    (protocol : LayerType) (rewriteFn : Bytes → Decoder → UInt16 → ℕ → Rewrite) :
    List PortDNATRule → Except Panic (Bytes × Decoder × Bool)
  | [] => pure (packetData, d, false)
  | rule :: rules =>
    if rule.protocol ≠ protocol ∨ rule.targetIP ≠ dstIP then
      applyPortRule packetData d srcIP dstIP port protocol rewriteFn rules
    else if rule.targetPort = port ∧ rule.targetIP = srcIP then pure (packetData, d, false)
    else if rule.origPort ≠ port then
      applyPortRule packetData d srcIP dstIP port protocol rewriteFn rules
    else do
      let (packetData, err) ← rewriteFn packetData d rule.targetPort 2
      if err.isSome then
        return (packetData, d, false)
      return (packetData, { d with dnatOrigPort := rule.origPort }, true)

def translateInboundPortDNAT (n : PortDnat) (packetData : Bytes) (d : Decoder)
    (srcIP dstIP : Bytes) : Except Panic (Bytes × Decoder × Bool) := do
  if ! n.enabled then
    return (packetData, d, false)
  match ← index d.decoded 1 with
  | .tcp => applyPortRule packetData d srcIP dstIP d.tcp.dstPort .tcp rewriteTCPPort n.rules
  | .udp => applyPortRule packetData d [] dstIP d.udp.dstPort .udp rewriteUDPPort n.rules
  | _ => return (packetData, d, false)

end PortDnat

/-! ### Rewriting stays in range -/

theorem add_two_le_of_mem_wordPositions {lo n i : ℕ} (h : i ∈ wordPositions lo n) : i + 2 ≤ n := by
  obtain ⟨k, hk, rfl⟩ := mem_range'.mp h
  omega

theorem returns_ipv4Checksum (header : Bytes) : Returns (ipv4Checksum header) fun _ => True := by
  refine .ite (fun _ => .pure trivial) fun hlen => ?_
  have hfixed : ∀ l : List ℕ, (∀ i ∈ l, i ≤ 18) → Returns (sumAt header l) fun _ => True := by
    intro l hl
    refine returns_sumAt fun i hi => ?_
    have := hl i hi
    omega
  refine (hfixed [0, 4, 8, 14, 18] (by decide)).bind fun _ _ => ?_
  refine (hfixed [2, 6, 12, 16] (by decide)).bind fun _ _ => ?_
  exact (returns_sumAt fun i hi => add_two_le_of_mem_wordPositions hi).bind fun _ _ => .pure trivial

theorem returns_icmpChecksum (data : Bytes) : Returns (icmpChecksum data) fun _ => True := by
  have hblock : ∀ f : ℕ → List ℕ, (∀ i, ∀ j ∈ f i, j ≤ i + 14) →
      Returns (sumAt data ((range' 0 (data.length / 16) 16).flatMap f)) fun _ => True := by
    intro f hf
    refine returns_sumAt fun j hj => ?_
    obtain ⟨i, hi, hj⟩ := mem_flatMap.mp hj
    obtain ⟨k, hk, rfl⟩ := mem_range'.mp hi
    have := hf _ j hj
    omega
  refine (hblock (fun i => [i, i + 8]) (by simp)).bind fun _ _ => ?_
  refine (hblock (fun i => [i + 2, i + 10]) (by simp)).bind fun _ _ => ?_
  refine (hblock (fun i => [i + 4, i + 12]) (by simp)).bind fun _ _ => ?_
  refine (hblock (fun i => [i + 6, i + 14]) (by simp)).bind fun _ _ => ?_
  exact (returns_sumAt fun i hi => add_two_le_of_mem_wordPositions hi).bind fun _ _ => .pure trivial

section InRange

variable {n ipHeaderLen : ℕ} {packetData : Bytes}

theorem returns_updateTCPChecksum (oldIP newIP : Bytes) (hn : n ≤ ipHeaderLen) :
    Returns (updateTCPChecksum packetData ipHeaderLen oldIP newIP) (Agree (· < n) packetData) := by
  refine .ite (fun _ => .pure (.refl _ _)) fun hlen => ?_
  refine (returns_getUint16 (by omega)).bind fun _ _ => ?_
  exact returns_putUint16 (by omega) (by omega)

theorem returns_updateUDPChecksum (oldIP newIP : Bytes) (hn : n ≤ ipHeaderLen) :
    Returns (updateUDPChecksum packetData ipHeaderLen oldIP newIP) (Agree (· < n) packetData) := by
  refine .ite (fun _ => .pure (.refl _ _)) fun hlen => ?_
  refine (returns_getUint16 (by omega)).bind fun _ _ => ?_
  refine .ite (fun _ => .pure (.refl _ _)) fun _ => ?_
  exact returns_putUint16 (by omega) (by omega)

theorem returns_updateICMPChecksum (hn : n ≤ ipHeaderLen) :
    Returns (updateICMPChecksum packetData ipHeaderLen) (Agree (· < n) packetData) := by
  refine .ite (fun _ => .pure (.refl _ _)) fun hlen => ?_
  refine (returns_putUint16 (n := n) (by omega) (by omega)).bind fun p₁ h₁ => ?_
  have hlen₁ : packetData.length = p₁.length := h₁.1
  refine (returns_slice (by omega) (by omega)).bind fun _ _ => ?_
  refine (returns_icmpChecksum _).bind fun _ _ => ?_
  exact (returns_putUint16 (by omega) (by omega)).mono fun p₂ h₂ => h₁.trans h₂

theorem returns_updateChecksum (layer : LayerType) (oldIP newIP : Bytes) (hn : n ≤ ipHeaderLen) :
    Returns (updateChecksum layer packetData ipHeaderLen oldIP newIP)
      (Agree (· < n) packetData) := by
  cases layer with
  | tcp => exact returns_updateTCPChecksum oldIP newIP hn
  | udp => exact returns_updateUDPChecksum oldIP newIP hn
  | icmpv4 => exact returns_updateICMPChecksum hn
  | _ => exact .pure (.refl _ _)

/-- **An address is replaced in range**, behind the first ten bytes of the packet. -/
theorem returns_rewritePacketIP (d : Decoder) (newIP : Bytes) {ipOffset : ℕ} (hoff : 10 ≤ ipOffset)
    (hlen : ipOffset + 4 ≤ packetData.length) :
    Returns (rewritePacketIP packetData d newIP ipOffset)
      fun r => Agree (· < 10) packetData r.1 := by
  refine .ite (fun _ => .pure (.refl _ _)) fun hnew => ?_
  refine (returns_slice (by omega) hlen).bind fun oldIP _ => ?_
  refine (returns_write (by omega) hoff).bind fun p₁ h₁ => ?_
  refine .ite (fun _ => .pure h₁) fun hihl => ?_
  refine (returns_putUint16 (by omega) (Nat.le_refl 10)).bind fun p₂ h₂ => ?_
  have hlen₂ : p₁.length = p₂.length := h₂.1
  refine (returns_slice (by omega) (by omega)).bind fun _ _ => ?_
  refine (returns_ipv4Checksum _).bind fun _ _ => ?_
  refine (returns_putUint16 (by omega) (Nat.le_refl 10)).bind fun p₃ h₃ => ?_
  have hsame := (h₁.trans h₂).trans h₃
  refine .ite (fun _ => .pure hsame) fun hone => ?_
  refine (returns_index (by omega)).bind fun layer _ => ?_
  refine (returns_updateChecksum layer oldIP newIP (n := 10) (by omega)).bind fun _ h => ?_
  exact .pure (hsame.trans h)

/-- What a function that rewrites ports does: it stays in range behind the IP header, and succeeds if
the headers are complete. -/
def RewritesPort (rewriteFn : Bytes → Decoder → UInt16 → ℕ → Rewrite) : Prop :=
  ∀ (packetData : Bytes) (d : Decoder) (newPort : UInt16) (portOffset : ℕ), portOffset ≤ 2 →
    Returns (rewriteFn packetData d newPort portOffset) fun r =>
      Agree (· < 10) packetData r.1 ∧
        (20 ≤ d.ip4.ihl * 4 → d.ip4.ihl * 4 + 8 ≤ packetData.length → r.2 = none)

theorem returns_rewriteTCPPort : RewritesPort rewriteTCPPort := by
  intro packetData d newPort portOffset hoff
  refine .ite (fun _ => .pure ⟨.refl _ _, by omega⟩) fun hihl => ?_
  refine .ite (fun _ => .pure ⟨.refl _ _, by omega⟩) fun hlen => ?_
  refine (returns_getUint16 (by omega)).bind fun _ _ => ?_
  refine (returns_putUint16 (n := 10) (by omega) (by omega)).bind fun p₁ h₁ => ?_
  refine .ite (fun hlong => ?_) fun _ => .pure ⟨h₁, fun _ _ => rfl⟩
  refine (returns_getUint16 (by omega)).bind fun _ _ => ?_
  refine (returns_putUint16 (n := 10) (by omega) (by omega)).bind fun p₂ h₂ => ?_
  exact .pure ⟨h₁.trans h₂, fun _ _ => rfl⟩

theorem returns_rewriteUDPPort : RewritesPort rewriteUDPPort := by
  intro packetData d newPort portOffset hoff
  refine .ite (fun _ => .pure ⟨.refl _ _, by omega⟩) fun hihl => ?_
  refine .ite (fun _ => .pure ⟨.refl _ _, by omega⟩) fun hlen => ?_
  refine (returns_getUint16 (by omega)).bind fun _ _ => ?_
  refine (returns_putUint16 (n := 10) (by omega) (by omega)).bind fun p₁ h₁ => ?_
  refine .ite (fun hlong => ?_) fun _ => .pure ⟨h₁, fun _ _ => rfl⟩
  refine (returns_getUint16 (by omega)).bind fun _ _ => ?_
  refine .ite (fun _ => ?_) fun _ => .pure ⟨h₁, fun _ _ => rfl⟩
  refine (returns_putUint16 (n := 10) (by omega) (by omega)).bind fun p₂ h₂ => ?_
  exact .pure ⟨h₁.trans h₂, fun _ _ => rfl⟩

/-! ### The MSS option -/

theorem returns_sumPairs {b : Bytes} {positions : List ℕ}
    (h : ∀ i ∈ positions, i + 2 ≤ b.length) : Returns (sumPairs b positions) fun _ => True := by
  refine returns_foldlM (fun i hi _ => ?_) 0
  have hlen := h i hi
  refine Returns.bind (P := fun _ => True) ?_ fun _ _ => .pure trivial
  refine (returns_index (by omega)).bind fun _ _ => ?_
  exact (returns_index (by omega)).bind fun _ _ => .pure trivial

theorem returns_recalculateTCPChecksum {d : Decoder} {start : ℕ}
    (hlen : start + 18 ≤ packetData.length) (hsrc : d.ip4.srcIP.length = 4)
    (hdst : d.ip4.dstIP.length = 4) (hn : n ≤ start) :
    Returns (recalculateTCPChecksum packetData d start) (Agree (· < n) packetData) := by
  refine (returns_slice (by omega) (by omega)).bind fun _ _ => ?_
  refine (returns_setByte (n := n) (by omega) (by omega)).bind fun p₁ h₁ => ?_
  have hlen₁ : packetData.length = p₁.length := h₁.1
  refine (returns_setByte (n := n) (by omega) (by omega)).bind fun p₂ h₂ => ?_
  have hlen₂ : p₁.length = p₂.length := h₂.1
  refine (returns_slice (by omega) (by omega)).bind fun tcpLayer htcp => ?_
  have hfour : ∀ b : Bytes, b.length = 4 → ∀ i ∈ [0, 2], i + 2 ≤ b.length := by
    intro b hb i hi
    simp only [mem_cons, not_mem_nil, or_false] at hi
    omega
  refine (returns_sumPairs (hfour _ hsrc)).bind fun _ _ => ?_
  refine (returns_sumPairs (hfour _ hdst)).bind fun _ _ => ?_
  refine (returns_sumPairs fun i hi => ?_).bind fun _ _ => ?_
  · have := add_two_le_of_mem_wordPositions hi
    omega
  · exact (returns_putUint16 (n := n) (by omega) (by omega)).mono fun p₃ h₃ =>
      (h₁.trans h₂).trans h₃

/-- **The MSS option is replaced in range**, for a packet with the options that were decoded. -/
theorem returns_clampTCPMSS {d : Decoder} (mssClampValue : UInt16)
    (hlen : d.ip4.ihl * 4 + 20 + (d.tcp.options.map TCPOption.size).sum ≤ packetData.length)
    (hsrc : d.ip4.srcIP.length = 4) (hdst : d.ip4.dstIP.length = 4) :
    Returns (clampTCPMSS mssClampValue packetData d) (Agree (· < 10) packetData) := by
  refine .ite (fun _ => .pure (.refl _ _)) fun _ => ?_
  cases hfind : d.tcp.options.findIdx? fun o =>
      decide (o.kind = 2 ∧ o.data.length = 2 ∧ mssClampValue < be16 o.data 0) with
  | none => exact .pure (.refl _ _)
  | some i =>
    obtain ⟨hi, hmss, _⟩ := findIdx?_eq_some_iff_getElem.mp hfind
    obtain ⟨hkind, hdata, _⟩ := of_decide_eq_true hmss
    refine .ite (fun _ => .pure (.refl _ _)) fun hihl => ?_
    -- the options before this one and the option itself lie behind each other
    have hsize := congrArg (fun l => (l.map TCPOption.size).sum) (take_append_drop (i + 1) d.tcp.options)
    simp only [take_succ_eq_append_getElem hi, map_append, sum_append, map_singleton,
      sum_singleton] at hsize
    rw [TCPOption.size, hkind, if_neg (by decide)] at hsize
    refine (returns_mapM_index (by omega)).bind fun before hbefore => ?_
    subst hbefore
    refine (returns_putUint16 (n := 10) (by omega) (by omega)).bind fun p₁ h₁ => ?_
    have hlen₁ : packetData.length = p₁.length := h₁.1
    exact (returns_recalculateTCPChecksum (n := 10) (by omega) hsrc hdst (by omega)).mono
      fun p₂ h₂ => h₁.trans h₂

end InRange

/-! ### Translations -/

namespace Dnat

variable {n : Dnat} {packetData : Bytes} {d : Decoder}

/-- The map of addresses exists if it is used. -/
def Sound (n : Dnat) : Prop := n.enabled = true → n.biMap.isSome = true

theorem returns_addrAt {offset : ℕ} (h : offset + 4 ≤ packetData.length) :
    Returns (addrAt packetData offset) fun _ => True := by
  refine (returns_mapM fun i hi => ?_).mono fun _ _ => trivial
  simp only [mem_cons, not_mem_nil, or_false] at hi
  exact (returns_index (by omega)).mono fun _ _ => trivial

theorem returns_translate {find : Bytes → Except Panic (Option Bytes)} {offset : ℕ}
    (hfind : n.enabled = true → ∀ addr, Returns (find addr) fun _ => True) (hoff : 10 ≤ offset)
    (hlen : offset + 4 ≤ packetData.length) :
    Returns (translate find n packetData d offset) fun r =>
      Agree (· < 10) packetData r.1 ∧ (n.enabled = false → r = (packetData, false)) := by
  unfold translate
  cases henabled : n.enabled with
  | false => exact .pure ⟨.refl _ _, fun _ => rfl⟩
  | true =>
    refine (returns_addrAt hlen).bind fun addr _ => ?_
    refine (hfind henabled addr).bind fun found _ => ?_
    rcases found with _ | newIP
    · exact .pure ⟨.refl _ _, fun h => nomatch h⟩
    · refine (returns_rewritePacketIP d newIP hoff hlen).bind fun r h => ?_
      exact .pure ⟨h, fun h => nomatch h⟩

theorem returns_translateOutboundDNAT (hn : n.Sound) (hlen : 20 ≤ packetData.length) :
    Returns (n.translateOutboundDNAT packetData d) fun r =>
      Agree (· < 10) packetData r.1 ∧ (n.enabled = false → r = (packetData, false)) := by
  refine returns_translate (fun h addr => ?_) (by omega) (by omega)
  rw [getDNATTranslation, if_pos h]
  exact (returns_deref (hn h)).bind fun _ _ => .pure trivial

theorem returns_translateInboundReverse (hn : n.Sound) (hlen : 20 ≤ packetData.length) :
    Returns (n.translateInboundReverse packetData d) fun r =>
      Agree (· < 10) packetData r.1 ∧ (n.enabled = false → r = (packetData, false)) := by
  refine returns_translate (fun h addr => ?_) (by omega) (by omega)
  rw [findReverseDNATMapping, if_pos h]
  exact (returns_deref (hn h)).bind fun _ _ => .pure trivial

theorem Sound.addInternalDNATMapping {isLocalIP : Bytes → Bool} {original translated : Bytes}
    {n' : Dnat} (h : n.addInternalDNATMapping isLocalIP original translated = .ok n') :
    n'.Sound := by
  unfold Dnat.addInternalDNATMapping at h
  split_ifs at h
  obtain rfl := Except.ok.inj h
  exact fun _ => rfl

theorem Sound.removeInternalDNATMapping {original : Bytes} {n' : Dnat}
    (h : n.removeInternalDNATMapping original = .ok (.ok n')) : n'.Sound := by
  unfold Dnat.removeInternalDNATMapping at h
  split at h
  · nomatch h
  · obtain ⟨biMap, _, h⟩ := Except.bind_eq_ok.mp h
    obtain rfl := Except.ok.inj (Except.ok.inj h)
    exact fun _ => rfl

end Dnat

namespace PortDnat

/-- The rule that `applyPortRule` applies to a packet. -/
def matching (srcIP dstIP : Bytes) (port : UInt16) (protocol : LayerType) :
    List PortDNATRule → Option PortDNATRule
  | [] => none
  | rule :: rules =>
    if rule.protocol ≠ protocol ∨ rule.targetIP ≠ dstIP then
      matching srcIP dstIP port protocol rules
    else if rule.targetPort = port ∧ rule.targetIP = srcIP then none
    else if rule.origPort ≠ port then matching srcIP dstIP port protocol rules
    else some rule

variable {srcIP dstIP : Bytes}

variable {d : Decoder}

theorem returns_applyPortRule {packetData : Bytes}
    {port : UInt16} {protocol : LayerType} {rewriteFn : Bytes → Decoder → UInt16 → ℕ → Rewrite}
    (hrewrite : RewritesPort rewriteFn) (hihl : 20 ≤ d.ip4.ihl * 4)
    (hlen : d.ip4.ihl * 4 + 8 ≤ packetData.length) (rules : List PortDNATRule) :
    Returns (applyPortRule packetData d srcIP dstIP port protocol rewriteFn rules) fun r =>
      Agree (· < 10) packetData r.1 ∧
        match matching srcIP dstIP port protocol rules with
        | none => r = (packetData, d, false)
        | some rule => r.2 = ({ d with dnatOrigPort := rule.origPort }, true) := by
  induction rules with
  | nil => exact .pure ⟨.refl _ _, rfl⟩
  | cons rule rules ih =>
    rw [applyPortRule, matching]
    split_ifs
    · exact ih
    · exact .pure ⟨.refl _ _, rfl⟩
    · exact ih
    · refine (hrewrite packetData d rule.targetPort 2 (by omega)).bind fun r ⟨hsame, hok⟩ => ?_
      simp only [hok hihl hlen]
      exact .pure ⟨hsame, rfl⟩

/-- The rule that `translateInboundPortDNAT` applies to a packet. -/
def ruleFor (n : PortDnat) (d : Decoder) (srcIP dstIP : Bytes) : Option PortDNATRule :=
  if n.enabled then
    match d.decoded[1]? with
    | some LayerType.tcp => matching srcIP dstIP d.tcp.dstPort .tcp n.rules
    | some LayerType.udp => matching [] dstIP d.udp.dstPort .udp n.rules
    | _ => none
  else none

theorem ruleFor_of_off {n : PortDnat} (h : n.enabled = false) : n.ruleFor d srcIP dstIP = none := by
  simp [ruleFor, h]

/-- **A port rule is applied in range**, and leaves the port it has replaced in the decoder. -/
theorem returns_translateInboundPortDNAT (n : PortDnat) {packetData : Bytes}
    {layer : LayerType} (hlayer : d.decoded[1]? = some layer)
    (hheader : layer = .tcp ∨ layer = .udp →
      20 ≤ d.ip4.ihl * 4 ∧ d.ip4.ihl * 4 + 8 ≤ packetData.length) :
    Returns (n.translateInboundPortDNAT packetData d srcIP dstIP) fun r =>
      Agree (· < 10) packetData r.1 ∧
        match n.ruleFor d srcIP dstIP with
        | none => r = (packetData, d, false)
        | some rule => r.2 = ({ d with dnatOrigPort := rule.origPort }, true) := by
  unfold translateInboundPortDNAT ruleFor
  cases n.enabled with
  | false => exact .pure ⟨.refl _ _, rfl⟩
  | true =>
    simp only [Bool.not_true, Bool.false_eq_true, if_false, if_true, hlayer,
      index_of_getElem? hlayer]
    cases layer with
    | tcp =>
      obtain ⟨hihl, hlen⟩ := hheader (.inl rfl)
      exact returns_applyPortRule returns_rewriteTCPPort hihl hlen n.rules
    | udp =>
      obtain ⟨hihl, hlen⟩ := hheader (.inr rfl)
      exact returns_applyPortRule returns_rewriteUDPPort hihl hlen n.rules
    | _ => exact .pure ⟨.refl _ _, rfl⟩

end PortDnat

end Netbird.Firewall
