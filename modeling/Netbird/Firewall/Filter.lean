/-
The userspace packet filter (`uspfilter/filter.go`).

`filterOutbound` and `filterInbound` take a packet and a decoder from a pool, and return the
decoder to the pool.  What they change is explicit here: the connection trackers and the flow
events of the `Manager`, the decoder and the bytes of the packet.  The trackers are `none` when
connection tracking is disabled, and following such a pointer is a panic.

* `Manager.Sound` — the trackers exist exactly if the filter is stateful, and the map of addresses
  exists if it is enabled.
-/
import Netbird.Firewall.Nat
import Netbird.Firewall.ConntrackTcp

namespace Netbird.Firewall

open Conntrack Checked

/-- `common.PacketHook`. -/
structure PacketHook where
  ip : Bytes
  port : UInt16
  fn : Bytes → Bool

def hookMatches (h : Option PacketHook) (dstIP : Bytes) (dport : UInt16) (packetData : Bytes) :
    Bool :=
  match h with
  | none => false
  | some h => if h.ip = dstIP ∧ h.port = dport then h.fn packetData else false

/-- `Manager`. The UUIDs of drop events are numbered. -/
structure Manager where
  peerRules : PeerRules
  routeRules : List RouteRule
  routingEnabled : Bool
  nativeRouter : Bool
  stateful : Bool
  netstack : Bool
  localForwarding : Bool
  isLocalIP : Bytes → Bool
  wgIP : Bytes
  udpTracker : Option UDPTracker
  icmpTracker : Option ICMPTracker
  tcpTracker : Option TCPTracker
  forwarder : Bool
  nextFlow : ℕ
  events : List EventFields
  dnat : Dnat
  portDnat : PortDnat
  netstackServices : List (LayerType × UInt16)
  mssClampValue : UInt16
  mssClampEnabled : Bool
  udpHookOut : Option PacketHook
  tcpHookOut : Option PacketHook

/-! ### What the filter reads from a decoded packet -/

/-- `netip.AddrFromSlice`; an invalid address has no bytes. -/
def addrFromSlice (b : Bytes) : Bytes :=
  if b.length = 4 ∨ b.length = 16 then b else []

variable (d : Decoder)

def extractIPs : Except Panic (Bytes × Bytes) := do
  match ← index d.decoded 0 with
  | .ipv4 => return (addrFromSlice d.ip4.srcIP, addrFromSlice d.ip4.dstIP)
  | .ipv6 => return (addrFromSlice d.ip6.srcIP, addrFromSlice d.ip6.dstIP)
  | _ => return ([], [])

def getTCPFlags (tcp : TCP) : UInt8 :=
  let flag (b : Bool) (f : UInt8) : UInt8 := if b then f else 0
  flag tcp.syn tcpSyn ||| flag tcp.ack tcpAck ||| flag tcp.fin tcpFin ||| flag tcp.rst tcpRst |||
    flag tcp.psh tcpPush ||| flag tcp.urg tcpUrg

def getProtocolFromPacket : Except Panic FlowProtocol := do
  match ← index d.decoded 1 with
  | .tcp => return .tcp
  | .udp => return .udp
  | .icmpv4 | .icmpv6 => return .icmp
  | _ => return .unknown

def getPortsFromPacket : Except Panic (UInt16 × UInt16) := do
  match ← index d.decoded 1 with
  | .tcp => return (d.tcp.srcPort, d.tcp.dstPort)
  | .udp => return (d.udp.srcPort, d.udp.dstPort)
  | _ => return (0, 0)

/-- The tuples of a packet for the trackers. -/
def udpKey (srcIP dstIP : Bytes) : ConnKey :=
  ⟨srcIP, dstIP, d.udp.srcPort, d.udp.dstPort⟩

def tcpPacket (srcIP dstIP : Bytes) : TCPPacket :=
  ⟨⟨srcIP, dstIP, d.tcp.srcPort, d.tcp.dstPort⟩, getTCPFlags d.tcp⟩

def icmpPacket (srcIP dstIP : Bytes) : ICMPPacket :=
  ⟨⟨srcIP, dstIP, d.icmp4.id⟩, ⟨d.icmp4.type, d.icmp4.code⟩⟩

/-- What a filter function leaves behind: whether the packet is dropped, and the new values of
what it changes. -/
structure Outcome where
  drop : Bool
  manager : Manager
  decoder : Decoder
  packetData : Bytes

namespace Manager

variable (gp : Gopacket) (visit : Keyed.Visit PeerRule)

/-! ### Outbound packets -/

def trackOutbound (m : Manager) (now : ℤ) (d : Decoder) (srcIP dstIP packetData : Bytes)
    (size : ℕ) : Except Panic (Manager × Bytes) := do
  match ← index d.decoded 1 with
  | .udp =>
    let t ← deref m.udpTracker
    let (origPort, t) := t.trackOutbound udp now (udpKey d srcIP dstIP) size
    let m := { m with udpTracker := some t }
    if origPort = 0 then
      return (m, packetData)
    let (packetData, _) ← rewriteUDPPort packetData d origPort 0
    return (m, packetData)
  | .tcp =>
    let t ← deref m.tcpTracker
    let (origPort, t) := t.trackOutbound now (tcpPacket d srcIP dstIP) size
    let m := { m with tcpTracker := some t }
    if origPort = 0 then
      return (m, packetData)
    let (packetData, _) ← rewriteTCPPort packetData d origPort 0
    return (m, packetData)
  | .icmpv4 =>
    let t ← deref m.icmpTracker
    let (_, t) := t.trackOutbound icmp now (icmpPacket d srcIP dstIP) size
    return ({ m with icmpTracker := some t }, packetData)
  | _ => return (m, packetData)

variable (m : Manager)

/-- The switch of `filterOutbound`: whether a hook takes the packet, and the clamped packet. -/
def outboundHooks (d : Decoder) (dstIP packetData : Bytes) : Except Panic (Bool × Bytes) := do
  match ← index d.decoded 1 with
  | .udp => return (hookMatches m.udpHookOut dstIP d.udp.dstPort packetData, packetData)
  | .tcp =>
    if hookMatches m.tcpHookOut dstIP d.tcp.dstPort packetData then
      return (true, packetData)
    if m.mssClampEnabled then
      return (false, ← clampTCPMSS m.mssClampValue packetData d)
    return (false, packetData)
  | _ => return (false, packetData)

variable (now : ℤ) (d : Decoder)

/-- What cannot be decoded passes, unlike inbound; what a hook takes is dropped. -/
def filterOutbound (packetData : Bytes) (size : ℕ) : Except Panic Outcome := do
  match decodeLayers gp d packetData with
  | (d, false) => return ⟨false, m, d, packetData⟩
  | (d, true) =>
    if d.decoded.length < 2 then
      return ⟨false, m, d, packetData⟩
    let (srcIP, dstIP) ← extractIPs d
    if srcIP = [] then
      return ⟨false, m, d, packetData⟩
    let (taken, packetData) ← m.outboundHooks d dstIP packetData
    if taken then
      return ⟨true, m, d, packetData⟩
    let (m, packetData) ← m.trackOutbound now d srcIP dstIP packetData size
    let (packetData, _) ← m.dnat.translateOutboundDNAT packetData d
    return ⟨false, m, d, packetData⟩

/-! ### Inbound packets -/

def trackInbound (m : Manager) (now : ℤ) (d : Decoder) (srcIP dstIP ruleID : Bytes) (size : ℕ) :
    Except Panic (Manager × Decoder) := do
  let d' := { d with dnatOrigPort := 0 }
  match ← index d.decoded 1 with
  | .udp =>
    let t ← deref m.udpTracker
    let t := t.trackInbound udp now (udpKey d srcIP dstIP) ruleID size d.dnatOrigPort
    return ({ m with udpTracker := some t }, d')
  | .tcp =>
    let t ← deref m.tcpTracker
    let t := t.trackInbound now (tcpPacket d srcIP dstIP) ruleID size d.dnatOrigPort
    return ({ m with tcpTracker := some t }, d')
  | .icmpv4 =>
    let t ← deref m.icmpTracker
    let t := t.trackInbound icmp now (icmpPacket d srcIP dstIP) ruleID size 0
    return ({ m with icmpTracker := some t }, d')
  | _ => return (m, d')

/-- Whether the tracker of the protocol takes the packet for an answer. -/
def isValidTrackedConnection (srcIP dstIP : Bytes) (size : ℕ) : Except Panic (Bool × Manager) := do
  match ← index d.decoded 1 with
  | .tcp =>
    let t ← deref m.tcpTracker
    let (ok, t) := t.isValidInbound now (tcpPacket d srcIP dstIP) size
    return (ok, { m with tcpTracker := some t })
  | .udp =>
    let t ← deref m.udpTracker
    let (ok, t) := t.isValidInbound udp now (udpKey d srcIP dstIP) size
    return (ok, { m with udpTracker := some t })
  | .icmpv4 =>
    let t ← deref m.icmpTracker
    let (ok, t) := t.isValidInbound icmp now (icmpPacket d srcIP dstIP) size
    return (ok, { m with icmpTracker := some t })
  | _ => return (false, m)

def hasMatchingNetstackService : Bool :=
  match d.decoded[1]? with
  | some LayerType.tcp => (LayerType.tcp, d.tcp.dstPort) ∈ m.netstackServices
  | some LayerType.udp => (LayerType.udp, d.udp.dstPort) ∈ m.netstackServices
  | _ => false

def shouldForward (dstIP : Bytes) : Bool :=
  if ! m.localForwarding then false
  else if m.netstack then ! m.hasMatchingNetstackService d
  else dstIP ≠ m.wgIP

/-- The event of a dropped packet. -/
def logDrop (srcIP dstIP ruleID : Bytes) (size : ℕ) : Except Panic Manager := do
  let protocol ← getProtocolFromPacket d
  let (srcPort, dstPort) ← getPortsFromPacket d
  return { m with
    nextFlow := m.nextFlow + 1
    events := m.events ++
      [{ flowID := m.nextFlow
         type := .drop
         ruleID := ruleID
         direction := .ingress
         protocol := protocol
         sourceIP := srcIP
         destIP := dstIP
         sourcePort := srcPort
         destPort := dstPort
         icmpType := 0
         icmpCode := 0
         rxPackets := 1
         txPackets := 0
         rxBytes := UInt64.ofNat size
         txBytes := 0 }] }

variable (srcIP dstIP packetData : Bytes)

/-- `handleLocalTraffic`. A packet for the forwarder is not processed further. -/
def handleLocalTraffic (size : ℕ) : Except Panic Outcome := do
  let (ruleID, blocked) ← peerACLsBlock visit m.peerRules srcIP d
  if blocked then
    return ⟨true, ← m.logDrop d srcIP dstIP ruleID size, d, packetData⟩
  if m.shouldForward d dstIP then
    return ⟨true, m, d, packetData⟩
  let (m, d) ← m.trackInbound now d srcIP dstIP ruleID size
  return ⟨false, m, d, packetData⟩

/-- `handleRoutedTraffic`. A packet for the forwarder does not reach the native stack. -/
def handleRoutedTraffic (size : ℕ) : Except Panic Outcome := do
  if ! m.routingEnabled then
    return ⟨true, m, d, packetData⟩
  if m.nativeRouter then
    let (m, d) ← m.trackInbound now d srcIP dstIP [] size
    return ⟨false, m, d, packetData⟩
  let protoLayer ← index d.decoded 1
  let (srcPort, dstPort) ← getPortsFromPacket d
  let (ruleID, pass) := routeACLsPass m.routeRules srcIP dstIP protoLayer srcPort dstPort
  if ! pass then
    return ⟨true, ← m.logDrop d srcIP dstIP ruleID size, d, packetData⟩
  return ⟨true, m, d, packetData⟩

/-- What `filterInbound` does after a translation: a packet that was changed is decoded again. The
addresses are `none` if this fails. -/
def redecode (changed : Bool) (d : Decoder) (packetData : Bytes) (ips : Bytes × Bytes) :
    Except Panic (Decoder × Option (Bytes × Bytes)) :=
  if changed then
    match decodeLayers gp d packetData with
    | (d, false) => return (d, none)
    | (d, true) => do return (d, some (← extractIPs d))
  else return (d, some ips)

/-- The two translations of `filterInbound`: the decoder, the packet, and the addresses. -/
def translateInbound : Except Panic (Decoder × Bytes × Option (Bytes × Bytes)) := do
  let (packetData, d, translated) ←
    m.portDnat.translateInboundPortDNAT packetData d srcIP dstIP
  match ← redecode gp translated d packetData (srcIP, dstIP) with
  | (d, none) => return (d, packetData, none)
  | (d, some ips) =>
    let (packetData, translated) ← m.dnat.translateInboundReverse packetData d
    let (d, ips) ← redecode gp translated d packetData ips
    return (d, packetData, ips)

/-- The end of `filterInbound`, for a packet that is no fragment. -/
def judgeInbound (size : ℕ) : Except Panic Outcome := do
  let (ok, m) ← if m.stateful then m.isValidTrackedConnection now d srcIP dstIP size
    else pure (false, m)
  if ok then
    return ⟨false, m, d, packetData⟩
  if m.isLocalIP dstIP then
    m.handleLocalTraffic visit now d srcIP dstIP packetData size
  else
    m.handleRoutedTraffic now d srcIP dstIP packetData size

/-- A fragment passes unjudged; other packets are translated first. -/
def filterInbound (packetData : Bytes) (size : ℕ) : Except Panic Outcome := do
  match isValidPacket gp d packetData with
  | (d, false, _) => return ⟨true, m, d, packetData⟩
  | (d, true, fragment) =>
    let (srcIP, dstIP) ← extractIPs d
    if srcIP = [] then
      return ⟨true, m, d, packetData⟩
    if fragment then
      return ⟨false, m, d, packetData⟩
    match ← m.translateInbound gp d srcIP dstIP packetData with
    | (d, packetData, none) => return ⟨true, m, d, packetData⟩
    | (d, packetData, some (srcIP, dstIP)) =>
      m.judgeInbound visit now d srcIP dstIP packetData size

/-! ### A new filter -/

/-- What `create` is given by the environment. -/
structure Env where
  disableConntrack : Bool
  enableLocalForwarding : Bool
  disableMSSClamping : Bool
  netstack : Bool
  /-- whether a forwarder can be made -/
  forwarding : Bool
  isLocalIP : Bytes → Bool
  wgIP : Bytes
  mtu : UInt16

/-- `DefaultUDPTimeout`, `DefaultICMPTimeout` and `DefaultTCPTimeout`, in nanoseconds. -/
def defaultUDPTimeout : ℤ := 30 * 1000000000
def defaultICMPTimeout : ℤ := 30 * 1000000000
def defaultTCPTimeout : ℤ := 3 * 3600 * 1000000000

/-- `create`: connection tracking is off if it is disabled, and routing is not yet on. -/
def create (env : Env) : Manager where
  peerRules := .empty
  routeRules := []
  routingEnabled := false
  nativeRouter := false
  stateful := ! env.disableConntrack
  netstack := env.netstack
  localForwarding := env.enableLocalForwarding
  isLocalIP := env.isLocalIP
  wgIP := env.wgIP
  udpTracker := if env.disableConntrack then none else some (.new defaultUDPTimeout)
  icmpTracker := if env.disableConntrack then none else some (.new defaultICMPTimeout)
  tcpTracker := if env.disableConntrack then none
    else some (.new defaultTCPTimeout (defaultTCPTimeout / 45))
  forwarder := env.netstack && env.enableLocalForwarding && env.forwarding
  nextFlow := 0
  events := []
  dnat := ⟨false, ∅, none⟩
  portDnat := ⟨false, []⟩
  netstackServices := []
  mssClampValue := if env.disableMSSClamping then 0 else env.mtu - 40
  mssClampEnabled := ! env.disableMSSClamping
  udpHookOut := none
  tcpHookOut := none

/-- The trackers exist exactly if the filter is stateful, and the map of addresses exists if it is
used. -/
structure Sound (m : Manager) : Prop where
  udp : m.udpTracker.isSome = m.stateful
  icmp : m.icmpTracker.isSome = m.stateful
  tcp : m.tcpTracker.isSome = m.stateful
  dnat : m.dnat.Sound

theorem create_sound (env : Env) : (create env).Sound := by
  cases h : env.disableConntrack <;>
    exact ⟨by simp [create, h], by simp [create, h], by simp [create, h], fun h => nomatch h⟩

/-- The configurations of a filter that was made in an environment: its address mappings are
added and removed, and everything else but the trackers can be set. -/
inductive Configured (env : Env) : Manager → Prop
  | create : Configured env (create env)
  | addInternalDNATMapping {m : Manager} {n : Dnat} (original translated : Bytes)
      (hm : Configured env m)
      (h : m.dnat.addInternalDNATMapping m.isLocalIP original translated = .ok n) :
      Configured env { m with dnat := n }
  | removeInternalDNATMapping {m : Manager} {n : Dnat} (original : Bytes) (hm : Configured env m)
      (h : m.dnat.removeInternalDNATMapping original = .ok (.ok n)) :
      Configured env { m with dnat := n }
  | set {m m' : Manager} (hm : Configured env m)
      (h : m' = { m' with
        stateful := m.stateful
        udpTracker := m.udpTracker
        icmpTracker := m.icmpTracker
        tcpTracker := m.tcpTracker
        dnat := m.dnat }) :
      Configured env m'

theorem Configured.sound {env : Env} {m : Manager} (h : Configured env m) :
    m.Sound ∧ m.stateful = ! env.disableConntrack := by
  induction h with
  | create => exact ⟨create_sound env, rfl⟩
  | addInternalDNATMapping original translated _ h ih =>
    exact ⟨⟨ih.1.udp, ih.1.icmp, ih.1.tcp, Dnat.Sound.addInternalDNATMapping h⟩, ih.2⟩
  | removeInternalDNATMapping original _ h ih =>
    exact ⟨⟨ih.1.udp, ih.1.icmp, ih.1.tcp, Dnat.Sound.removeInternalDNATMapping h⟩, ih.2⟩
  | set _ h ih =>
    rw [h]
    exact ⟨⟨ih.1.udp, ih.1.icmp, ih.1.tcp, ih.1.dnat⟩, ih.2⟩

/-- A configured filter has not seen a packet. -/
theorem Configured.trackers {env : Env} {m : Manager} (h : Configured env m) :
    m.udpTracker = (Manager.create env).udpTracker ∧
      m.icmpTracker = (Manager.create env).icmpTracker ∧
      m.tcpTracker = (Manager.create env).tcpTracker := by
  induction h with
  | create => exact ⟨rfl, rfl, rfl⟩
  | addInternalDNATMapping _ _ _ _ ih => exact ih
  | removeInternalDNATMapping _ _ _ ih => exact ih
  | set _ h ih =>
    rw [h]
    exact ih

end Manager

/-! ### The decoder pool -/

/-- The filter with the decoders that are in its pool. -/
structure System where
  manager : Manager
  decoders : List Decoder

/-- `decoders.Get()`: one of the decoders of the pool, or a new one. -/
def takeDecoder (decoders : List Decoder) (choice : ℕ) : Decoder × List Decoder :=
  match decoders[choice]? with
  | some d => (d, decoders.eraseIdx choice)
  | none => (default, decoders)

/-- What happens to a filter: a packet, with the choice of a decoder for it, other rules, or a run of
one of the cleanup routines. -/
inductive Input where
  | outbound (choice : ℕ) (packetData : Bytes) (size : ℕ)
  | inbound (choice : ℕ) (packetData : Bytes) (size : ℕ)
  | rules (peerRules : PeerRules) (routeRules : List RouteRule)
  | cleanupUDP
  | cleanupICMP
  | cleanupTCP

namespace System

variable (gp : Gopacket) (visit : Keyed.Visit PeerRule)

def put (decoders : List Decoder) (o : Outcome) : System := ⟨o.manager, o.decoder :: decoders⟩

/-- The answer to an input at a time, for a packet whether it is dropped, and the new state. -/
def respond (s : System) (i : ℤ × Input) : Except Panic (Bool × System) :=
  match i.2 with
  | .outbound choice packetData size => do
    let (d, decoders) := takeDecoder s.decoders choice
    let o ← s.manager.filterOutbound gp i.1 d packetData size
    return (o.drop, put decoders o)
  | .inbound choice packetData size => do
    let (d, decoders) := takeDecoder s.decoders choice
    let o ← s.manager.filterInbound gp visit i.1 d packetData size
    return (o.drop, put decoders o)
  | .rules peerRules routeRules => return (false, { s with manager := { s.manager with
      peerRules := peerRules, routeRules := routeRules } })
  | .cleanupUDP => return (false, { s with manager := { s.manager with
      udpTracker := s.manager.udpTracker.map (·.cleanup i.1) } })
  | .cleanupICMP => return (false, { s with manager := { s.manager with
      icmpTracker := s.manager.icmpTracker.map (·.cleanup i.1) } })
  | .cleanupTCP => return (false, { s with manager := { s.manager with
      tcpTracker := s.manager.tcpTracker.map (·.cleanup i.1) } })

/-- The state after a sequence of inputs, if none of them stops the program. -/
def run (s : System) (is : List (ℤ × Input)) : Except Panic System :=
  is.foldlM (fun s i => (fun r => r.2) <$> s.respond gp visit i) s

end System

end Netbird.Firewall
