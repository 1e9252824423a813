/-
The packet filter does not crash, if connection tracking is on.

Each function of the filter returns for every packet that was decoded: the second header is
there when it is asked for, also after the packet was rewritten and decoded again, the bytes of
the packet are read and written in range, and the trackers exist.  What a function does to the
filter is a list of calls on the trackers.  Without connection tracking they do not exist, and the
first outbound ICMP packet follows a nil pointer.

* `System.run_returns_iff` — no sequence of packets stops the filter exactly if it is stateful.
-/
import Netbird.Firewall.Filter

namespace Netbird.Firewall

open Conntrack Wire Returns

/-! ### Calls on the trackers -/

/-- A call on one of the trackers of the filter. -/
inductive TrackerCall where
  | udp (c : Call ConnKey)
  | icmp (c : Call ICMPPacket)
  | tcp (c : Call TCPPacket)

variable (layer : LayerType) (d : Decoder)

/-- The call of a packet on the tracker of its protocol. -/
def callFor (srcIP dstIP : Bytes) (call : (P : Type) → P → Call P) : List TrackerCall :=
  match layer with
  | .udp => [.udp (call _ (udpKey d srcIP dstIP))]
  | .tcp => [.tcp (call _ (tcpPacket d srcIP dstIP))]
  | .icmpv4 => [.icmp (call _ (icmpPacket d srcIP dstIP))]
  | _ => []

/-- The port that an inbound packet leaves in the connection it opens. -/
def origPortFor : UInt16 :=
  if layer = .icmpv4 then 0 else d.dnatOrigPort

def outboundCalls (srcIP dstIP : Bytes) (size : ℕ) : List TrackerCall :=
  callFor layer d srcIP dstIP fun _ p => .trackOutbound p size

def validCalls (srcIP dstIP : Bytes) (size : ℕ) : List TrackerCall :=
  callFor layer d srcIP dstIP fun _ p => .isValidInbound p size

def inboundCalls (srcIP dstIP ruleID : Bytes) (size : ℕ) : List TrackerCall :=
  callFor layer d srcIP dstIP fun _ p => .trackInbound p ruleID size (origPortFor layer d)

namespace Manager

def call (now : ℤ) (m : Manager) : TrackerCall → Manager
  | .udp c => { m with udpTracker := m.udpTracker.map (·.step udp (now, c)) }
  | .icmp c => { m with icmpTracker := m.icmpTracker.map (·.step icmp (now, c)) }
  | .tcp c => { m with tcpTracker := m.tcpTracker.map (·.step (now, c)) }

def calls (m : Manager) (now : ℤ) (cs : List TrackerCall) : Manager := cs.foldl (call now) m

/-- The filter without what packets and new rules change. -/
def config (m : Manager) : Manager :=
  { m with
    peerRules := .empty
    routeRules := []
    udpTracker := m.udpTracker.map fun t => .new t.timeout
    icmpTracker := m.icmpTracker.map fun t => .new t.timeout
    tcpTracker := m.tcpTracker.map fun _ => .new 0 0
    nextFlow := 0
    events := [] }

/-- The second filter is the first after the calls; the events differ, and the rules may. -/
structure Does (now : ℤ) (cs : List TrackerCall) (m m' : Manager) : Prop where
  config : m'.config = m.config
  udp : m'.udpTracker = (m.calls now cs).udpTracker
  icmp : m'.icmpTracker = (m.calls now cs).icmpTracker
  tcp : m'.tcpTracker = (m.calls now cs).tcpTracker

variable {m m' : Manager} {now : ℤ}

theorem config_call (c : TrackerCall) : (m.call now c).config = m.config := by
  cases c with
  | udp c | icmp c | tcp c => simp [call, config, Function.comp_def]

theorem config_calls (cs : List TrackerCall) : (m.calls now cs).config = m.config := by
  induction cs generalizing m with
  | nil => rfl
  | cons c cs ih => exact ih.trans (config_call c)

theorem Does.of_eq {cs : List TrackerCall} (h : m' = m.calls now cs) : Does now cs m m' := by
  subst h
  exact ⟨config_calls cs, rfl, rfl, rfl⟩

theorem Does.nothing : Does now [] m m := .of_eq rfl

/-- The filter is stateful, and sound. -/
structure Ready (m : Manager) : Prop extends m.Sound where
  stateful : m.stateful = true

variable (hm : m.Ready)

include hm

theorem Ready.of_config (h : m'.config = m.config) : m'.Ready := by
  have hstateful : m'.config.stateful = m.config.stateful := congrArg Manager.stateful h
  have hdnat : m'.config.dnat = m.config.dnat := congrArg Manager.dnat h
  have hudp := congrArg (fun m => m.udpTracker.isSome) h
  have hicmp := congrArg (fun m => m.icmpTracker.isSome) h
  have htcp := congrArg (fun m => m.tcpTracker.isSome) h
  simp only [config, Option.isSome_map] at hstateful hdnat hudp hicmp htcp
  refine ⟨⟨?_, ?_, ?_, ?_⟩, hstateful.trans hm.stateful⟩
  · rw [hudp, hm.udp, hstateful]
  · rw [hicmp, hm.icmp, hstateful]
  · rw [htcp, hm.tcp, hstateful]
  · rw [hdnat]
    exact hm.dnat

theorem Ready.udpTracker : m.udpTracker.isSome = true := hm.udp.trans hm.stateful

theorem Ready.icmpTracker : m.icmpTracker.isSome = true := hm.icmp.trans hm.stateful

theorem Ready.tcpTracker : m.tcpTracker.isSome = true := hm.tcp.trans hm.stateful

/-- The trackers are there, and a call on one changes it only. -/
theorem Ready.returns_udp : Returns (Checked.deref m.udpTracker) fun t => ∀ now c,
    m.calls now [.udp c] = { m with udpTracker := some (t.step udp (now, c)) } :=
  (returns_deref hm.udpTracker).mono fun t ht now c => by simp [calls, call, ht]

theorem Ready.returns_icmp : Returns (Checked.deref m.icmpTracker) fun t => ∀ now c,
    m.calls now [.icmp c] = { m with icmpTracker := some (t.step icmp (now, c)) } :=
  (returns_deref hm.icmpTracker).mono fun t ht now c => by simp [calls, call, ht]

theorem Ready.returns_tcp : Returns (Checked.deref m.tcpTracker) fun t => ∀ now c,
    m.calls now [.tcp c] = { m with tcpTracker := some (t.step (now, c)) } :=
  (returns_deref hm.tcpTracker).mono fun t ht now c => by simp [calls, call, ht]

variable {gp : Gopacket} {visit : Keyed.Visit PeerRule} {d : Decoder}
  {srcIP dstIP packetData : Bytes} {size : ℕ} {layer : LayerType}

omit hm

theorem returns_extractIPs (h : d.decoded[0]? = some .ipv4) :
    Returns (extractIPs d) fun ips =>
      ips = (addrFromSlice d.ip4.srcIP, addrFromSlice d.ip4.dstIP) := by
  refine bind_index h ?_
  exact .pure rfl

/-! ### Outbound packets -/

theorem returns_trackOutbound (hm : m.Ready) (hlayer : d.decoded[1]? = some layer) :
    Returns (m.trackOutbound now d srcIP dstIP packetData size) fun r =>
      r.1 = m.calls now (outboundCalls layer d srcIP dstIP size) ∧
        Agree (· < 10) packetData r.2 := by
  refine bind_index hlayer ?_
  cases layer with
  | udp =>
    refine hm.returns_udp.bind fun t ht => ?_
    refine .ite (fun _ => .pure ⟨.symm (ht now _), .refl _ _⟩) fun _ => ?_
    refine (returns_rewriteUDPPort _ _ _ 0 (by omega)).bind fun r hr => ?_
    exact .pure ⟨.symm (ht now _), hr.1⟩
  | tcp =>
    refine hm.returns_tcp.bind fun t ht => ?_
    refine .ite (fun _ => .pure ⟨.symm (ht now _), .refl _ _⟩) fun _ => ?_
    refine (returns_rewriteTCPPort _ _ _ 0 (by omega)).bind fun r hr => ?_
    exact .pure ⟨.symm (ht now _), hr.1⟩
  | icmpv4 => exact hm.returns_icmp.bind fun t ht => .pure ⟨.symm (ht now _), .refl _ _⟩
  | _ => exact .pure ⟨rfl, .refl _ _⟩

theorem returns_outboundHooks (h : Parsed packetData d layer) :
    Returns (m.outboundHooks d dstIP packetData) fun r => Agree (· < 10) packetData r.2 := by
  refine bind_index h.second ?_
  cases layer with
  | tcp =>
    refine .ite (fun _ => .pure (.refl _ _)) fun _ => ?_
    refine .ite (fun _ => ?_) fun _ => .pure (.refl _ _)
    obtain ⟨hlen, hsrc, hdst⟩ := h.options rfl
    refine (returns_clampTCPMSS m.mssClampValue hlen hsrc hdst).bind fun p hp => ?_
    exact .pure hp
  | udp => exact .pure (.refl _ _)
  | _ => exact .pure (.refl _ _)

/-- What `filterOutbound` does to the filter: a packet with two headers is tracked, unless a hook
takes it. -/
def Sent (gp : Gopacket) (now : ℤ) (m : Manager) (d : Decoder) (packetData : Bytes) (size : ℕ)
    (drop : Bool) (m' : Manager) : Prop :=
  (m' = m ∧ (drop = false → ∀ d₁, decodeLayers gp d packetData = (d₁, true) →
    2 ≤ d₁.decoded.length → addrFromSlice d₁.ip4.srcIP = [])) ∨
  ∃ d₁ layer, decodeLayers gp d packetData = (d₁, true) ∧ d₁.decoded[1]? = some layer ∧
    m' = m.calls now (outboundCalls layer d₁ (addrFromSlice d₁.ip4.srcIP)
      (addrFromSlice d₁.ip4.dstIP) size)

/-- **`filterOutbound` returns** for every packet. -/
theorem returns_filterOutbound (hm : m.Ready) :
    Returns (m.filterOutbound gp now d packetData size) fun o =>
      m.Sent gp now d packetData size o.drop o.manager := by
  unfold filterOutbound
  cases hdec : decodeLayers gp d packetData with
  | mk d₁ ok =>
    cases ok with
    | false => exact .pure (.inl ⟨rfl, fun _ _ h => by simp [hdec] at h⟩)
    | true =>
      have hd₁ : ∀ d₂, decodeLayers gp d packetData = (d₂, true) → d₁ = d₂ := fun _ h =>
        (Prod.mk.inj (hdec.symm.trans h)).1
      refine .ite (fun hlen => .pure (.inl ⟨rfl, fun _ d₂ h h' => ?_⟩)) fun hlen => ?_
      · obtain rfl := hd₁ d₂ h
        omega
      have hparsed := parsed_of_decodeLayers hdec (List.getElem?_eq_getElem (not_lt.mp hlen))
      refine (returns_extractIPs hparsed.first).bind fun ips hips => ?_
      subst hips
      refine .ite (fun hsrc => .pure (.inl ⟨rfl, fun _ d₂ h _ => ?_⟩)) fun _ => ?_
      · obtain rfl := hd₁ d₂ h
        exact hsrc
      refine (returns_outboundHooks hparsed).bind fun r hr => ?_
      refine .ite (fun _ => .pure (.inl ⟨rfl, fun h => (nomatch h)⟩)) fun _ => ?_
      refine (returns_trackOutbound hm hparsed.second).bind fun r' hr' => ?_
      have hready : r'.1.Ready := hm.of_config (hr'.1 ▸ config_calls _)
      have hlen' : 20 ≤ r'.2.length := by
        have := hparsed.length
        have := hr.1
        have := hr'.2.1
        omega
      refine (Dnat.returns_translateOutboundDNAT hready.dnat hlen').bind fun r'' _ => ?_
      exact .pure (.inr ⟨_, _, hdec, hparsed.second, hr'.1⟩)

/-! ### Inbound packets -/

section Second

variable (hlayer : d.decoded[1]? = some layer)
include hlayer

theorem returns_trackInbound (hm : m.Ready) (ruleID : Bytes) :
    Returns (m.trackInbound now d srcIP dstIP ruleID size) fun r =>
      r.1 = m.calls now (inboundCalls layer d srcIP dstIP ruleID size) := by
  refine bind_index hlayer ?_
  cases layer with
  | udp => exact hm.returns_udp.bind fun t ht => .pure (.symm (ht now _))
  | tcp => exact hm.returns_tcp.bind fun t ht => .pure (.symm (ht now _))
  | icmpv4 => exact hm.returns_icmp.bind fun t ht => .pure (.symm (ht now _))
  | _ => exact .pure rfl

theorem returns_isValidTrackedConnection (hm : m.Ready) :
    Returns (m.isValidTrackedConnection now d srcIP dstIP size) fun r =>
      r.2 = m.calls now (validCalls layer d srcIP dstIP size) := by
  refine bind_index hlayer ?_
  cases layer with
  | udp => exact hm.returns_udp.bind fun t ht => .pure (.symm (ht now _))
  | tcp => exact hm.returns_tcp.bind fun t ht => .pure (.symm (ht now _))
  | icmpv4 => exact hm.returns_icmp.bind fun t ht => .pure (.symm (ht now _))
  | _ => exact .pure rfl

theorem returns_peerACLsBlock (rules : PeerRules) :
    Returns (peerACLsBlock visit rules srcIP d) fun _ => True := by
  have hindex : Returns (Checked.index d.decoded 1) fun _ => True :=
    ⟨_, Checked.index_of_getElem? hlayer, trivial⟩
  have hspecial : Returns (isSpecialICMP d) fun _ => True := hindex.bind fun _ _ => .pure trivial
  have hvalidate : ∀ set, Returns (validateRule visit srcIP set d) fun _ => True := by
    intro set
    refine hindex.bind fun _ _ => ?_
    dsimp only
    split <;> exact .pure trivial
  refine hspecial.bind fun _ _ => .ite (fun _ => .pure trivial) fun _ => ?_
  refine (hvalidate _).bind fun _ _ => .ite (fun _ => .pure trivial) fun _ => ?_
  refine (hvalidate _).bind fun _ _ => .ite (fun _ => .pure trivial) fun _ => ?_
  refine (hvalidate _).bind fun _ _ => .ite (fun _ => .pure trivial) fun _ => ?_
  refine (hvalidate _).bind fun _ _ => .ite (fun _ => .pure trivial) fun _ => ?_
  exact .pure trivial

theorem returns_getPortsFromPacket : Returns (getPortsFromPacket d) fun _ => True := by
  refine bind_index hlayer ?_
  split <;> exact .pure trivial

theorem returns_logDrop (ruleID : Bytes) :
    Returns (m.logDrop d srcIP dstIP ruleID size) (Does now [] m) := by
  have hprotocol : Returns (getProtocolFromPacket d) fun _ => True := by
    refine bind_index hlayer ?_
    split <;> exact .pure trivial
  refine hprotocol.bind fun _ _ => ?_
  refine (returns_getPortsFromPacket hlayer).bind fun _ _ => ?_
  exact .pure ⟨rfl, rfl, rfl, rfl⟩

/-- The calls on the trackers for an inbound packet that no tracker knows. -/
def Untracked (now : ℤ) (m : Manager) (layer : LayerType) (d : Decoder) (srcIP dstIP : Bytes)
    (size : ℕ) (m' : Manager) : Prop :=
  Does now [] m m' ∨ ∃ ruleID, m' = m.calls now (inboundCalls layer d srcIP dstIP ruleID size)

theorem returns_handleLocalTraffic (hm : m.Ready) :
    Returns (m.handleLocalTraffic visit now d srcIP dstIP packetData size) fun o =>
      m.Untracked now layer d srcIP dstIP size o.manager := by
  refine (returns_peerACLsBlock hlayer m.peerRules).bind fun r _ => ?_
  refine .ite (fun _ => ?_) fun _ => ?_
  · exact (returns_logDrop hlayer _).bind fun _ h => .pure (.inl h)
  refine .ite (fun _ => .pure (.inl .nothing)) fun _ => ?_
  exact (returns_trackInbound hlayer hm _).bind fun _ h => .pure (.inr ⟨_, h⟩)

theorem returns_handleRoutedTraffic (hm : m.Ready) :
    Returns (m.handleRoutedTraffic now d srcIP dstIP packetData size) fun o =>
      m.Untracked now layer d srcIP dstIP size o.manager := by
  refine .ite (fun _ => .pure (.inl .nothing)) fun _ => ?_
  refine .ite (fun _ => ?_) fun _ => ?_
  · exact (returns_trackInbound hlayer hm _).bind fun _ h => .pure (.inr ⟨_, h⟩)
  refine bind_index hlayer ?_
  refine (returns_getPortsFromPacket hlayer).bind fun _ _ => ?_
  refine .ite (fun _ => ?_) fun _ => .pure (.inl .nothing)
  exact (returns_logDrop hlayer _).bind fun _ h => .pure (.inl h)

end Second

/-- The port in the decoder after the translation of a packet. -/
def translatedPort (m : Manager) (d : Decoder) (srcIP dstIP : Bytes) : UInt16 :=
  match m.portDnat.ruleFor d srcIP dstIP with
  | none => d.dnatOrigPort
  | some rule => rule.origPort

/-- A packet in translation: it has kept its first bytes, and its headers are in the decoder. -/
structure Translating (layer : LayerType) (port : UInt16) (data data' : Bytes) (d : Decoder) :
    Prop where
  same : Agree (· < 10) data data'
  parsed : Parsed data' d layer
  port : d.dnatOrigPort = port

/-- The packet was changed, and decoded again if the change was reported. -/
theorem Translating.returns_redecode {d₀ d₁ : Decoder} {port : UInt16} {p₁ p₂ : Bytes}
    {changed : Bool} {ips : Bytes × Bytes} (hdec : decodeLayers gp d₀ packetData = (d, true))
    (hlayer : d.decoded[1]? = some layer) (h : Translating layer port packetData p₁ d₁)
    (hsame : Agree (· < 10) p₁ p₂) :
    Returns (redecode gp changed d₁ p₂ ips) fun r =>
      (r.2.isSome → Translating layer port packetData p₂ r.1) ∧
        (changed = false → r = (d₁, some ips)) := by
  have hsame' := h.same.trans hsame
  cases changed with
  | false => exact .pure ⟨fun _ => ⟨hsame', h.parsed.of_length hsame.1, h.port⟩, fun _ => rfl⟩
  | true =>
    unfold redecode
    have hport := decodeLayers_dnatOrigPort gp d₁ p₂
    cases hdec' : decodeLayers gp d₁ p₂ with
    | mk d₂ ok =>
      rw [hdec'] at hport
      cases ok
      · exact .pure ⟨fun h => (nomatch h), fun h => (nomatch h)⟩
      · have hparsed := parsed_of_decodeLayers hdec' (decoded_second hdec hlayer hsame' hdec')
        refine (returns_extractIPs hparsed.first).bind fun _ _ => ?_
        exact .pure ⟨fun _ => ⟨hsame', hparsed, hport.trans h.port⟩, fun h => (nomatch h)⟩

theorem Translating.of_ruleFor {p₁ : Bytes} {d₁ : Decoder} {translated : Bool}
    (hparsed : Parsed packetData d layer) (hsame : Agree (· < 10) packetData p₁)
    (hrule : match m.portDnat.ruleFor d srcIP dstIP with
      | none => (p₁, d₁, translated) = (packetData, d, false)
      | some rule => (d₁, translated) = ({ d with dnatOrigPort := rule.origPort }, true)) :
    Translating layer (m.translatedPort d srcIP dstIP) packetData p₁ d₁ := by
  rw [translatedPort]
  rcases hfor : m.portDnat.ruleFor d srcIP dstIP with _ | rule
  · rw [hfor] at hrule
    obtain ⟨rfl, rfl, _⟩ : p₁ = packetData ∧ d₁ = d ∧ translated = false := by
      simpa only [Prod.mk.injEq] using hrule
    exact ⟨hsame, hparsed, rfl⟩
  · rw [hfor] at hrule
    obtain ⟨rfl, _⟩ := Prod.mk.inj hrule
    have hparsed' := hparsed.of_length hsame.1
    exact ⟨hsame, ⟨hparsed'.first, hparsed'.second, hparsed'.known, hparsed'.length,
      hparsed'.header, hparsed'.options⟩, rfl⟩

/-- **The translations of a packet return**, with the port that a rule has replaced; without
mappings they do nothing. -/
theorem returns_translateInbound {d₀ : Decoder} (hm : m.Ready)
    (hdec : decodeLayers gp d₀ packetData = (d, true)) (hlayer : d.decoded[1]? = some layer) :
    Returns (m.translateInbound gp d srcIP dstIP packetData) fun r =>
      (r.2.2.isSome → Translating layer (m.translatedPort d srcIP dstIP) packetData r.2.1 r.1) ∧
      (m.portDnat.enabled = false → m.dnat.enabled = false →
        r = (d, packetData, some (srcIP, dstIP))) := by
  have hparsed := parsed_of_decodeLayers hdec hlayer
  refine (m.portDnat.returns_translateInboundPortDNAT hlayer hparsed.header).bind
    fun ⟨p₁, d₁, translated⟩ ⟨hsame₁, hrule⟩ => ?_
  have hoff : m.portDnat.enabled = false → (p₁, d₁, translated) = (packetData, d, false) := by
    intro hoff
    rwa [PortDnat.ruleFor_of_off hoff] at hrule
  have hfirst := Translating.of_ruleFor hparsed hsame₁ hrule
  refine (hfirst.returns_redecode hdec hlayer (.refl _ _)).bind fun ⟨d₂, ips₂⟩ ⟨hsecond, hsame₂⟩ => ?_
  rcases ips₂ with _ | ips₂
  · refine .pure ⟨fun h => (nomatch h), fun h _ => ?_⟩
    obtain ⟨_, _, rfl⟩ : p₁ = packetData ∧ d₁ = d ∧ translated = false := by
      simpa only [Prod.mk.injEq] using hoff h
    nomatch hsame₂ rfl
  · have hsecond := hsecond rfl
    refine (Dnat.returns_translateInboundReverse hm.dnat hsecond.parsed.length).bind
      fun ⟨p₃, translated'⟩ ⟨hsame₃, hoff'⟩ => ?_
    refine (hsecond.returns_redecode hdec hlayer hsame₃).bind fun ⟨d₃, ips₃⟩ ⟨hthird, hsame₃'⟩ => ?_
    refine .pure ⟨hthird, fun h h' => ?_⟩
    obtain ⟨rfl, rfl, rfl⟩ : p₁ = packetData ∧ d₁ = d ∧ translated = false := by
      simpa only [Prod.mk.injEq] using hoff h
    obtain ⟨rfl, rfl⟩ := Prod.mk.inj (hoff' h')
    obtain ⟨rfl, rfl⟩ : d₂ = d₁ ∧ ips₂ = (srcIP, dstIP) := by simpa using hsame₂ rfl
    obtain ⟨rfl, rfl⟩ := Prod.mk.inj (hsame₃' rfl)
    rfl

/-- The calls on the trackers for an inbound packet. -/
def Judged (now : ℤ) (m : Manager) (layer : LayerType) (d : Decoder) (srcIP dstIP : Bytes)
    (size : ℕ) (m' : Manager) : Prop :=
  ∃ cs, Does now cs m m' ∧ (cs = validCalls layer d srcIP dstIP size ∨ ∃ ruleID,
    cs = validCalls layer d srcIP dstIP size ++ inboundCalls layer d srcIP dstIP ruleID size)

theorem Untracked.judged
    (h : (m.calls now (validCalls layer d srcIP dstIP size)).Untracked now layer d srcIP dstIP size
      m') : m.Judged now layer d srcIP dstIP size m' := by
  obtain h | ⟨ruleID, rfl⟩ := h
  · exact ⟨_, ⟨h.config.trans (config_calls _), h.udp, h.icmp, h.tcp⟩, .inl rfl⟩
  · exact ⟨_, .of_eq List.foldl_append.symm, .inr ⟨ruleID, rfl⟩⟩

theorem returns_judgeInbound (hm : m.Ready) (hlayer : d.decoded[1]? = some layer) :
    Returns (m.judgeInbound visit now d srcIP dstIP packetData size) fun o =>
      m.Judged now layer d srcIP dstIP size o.manager := by
  unfold judgeInbound
  rw [if_pos hm.stateful]
  refine (returns_isValidTrackedConnection hlayer hm).bind fun ⟨ok, m₁⟩ hm₁ => ?_
  obtain rfl : m₁ = _ := hm₁
  have hready : (m.calls now (validCalls layer d srcIP dstIP size)).Ready :=
    hm.of_config (config_calls _)
  refine .ite (fun _ => .pure ⟨_, .of_eq rfl, .inl rfl⟩) fun _ => ?_
  refine .ite (fun _ => ?_) fun _ => ?_
  · exact (returns_handleLocalTraffic hlayer hready).mono fun _ h => h.judged
  · exact (returns_handleRoutedTraffic hlayer hready).mono fun _ h => h.judged

/-- What `filterInbound` does to the filter: nothing, or the packet has two headers and was
judged with the addresses of the second decoder. -/
def Filtered (gp : Gopacket) (now : ℤ) (m : Manager) (d : Decoder) (packetData : Bytes) (size : ℕ)
    (m' : Manager) : Prop :=
  m' = m ∨ ∃ d₁ d₂ layer srcIP dstIP, isValidPacket gp d packetData = (d₁, true, false) ∧
    d₁.decoded[1]? = some layer ∧
    d₂.dnatOrigPort = m.translatedPort d₁ (addrFromSlice d₁.ip4.srcIP)
      (addrFromSlice d₁.ip4.dstIP) ∧
    m.Judged now layer d₂ srcIP dstIP size m'

/-- **`filterInbound` returns** for every packet. -/
theorem returns_filterInbound (hm : m.Ready) :
    Returns (m.filterInbound gp visit now d packetData size) fun o =>
      m.Filtered gp now d packetData size o.manager := by
  unfold filterInbound
  cases hvalid : isValidPacket gp d packetData with
  | mk d₁ flags =>
    obtain ⟨ok, fragment⟩ := flags
    cases ok with
    | false => exact .pure (.inl rfl)
    | true =>
      have hdec := decodeLayers_of_isValidPacket hvalid
      refine (returns_extractIPs (decodeLayers_first hdec)).bind fun ips hips => ?_
      subst hips
      refine .ite (fun _ => .pure (.inl rfl)) fun _ => ?_
      refine .ite (fun _ => .pure (.inl rfl)) fun hwhole => ?_
      obtain rfl : fragment = false := by simpa using hwhole
      obtain ⟨layer, hlayer, _⟩ := isValidPacket_whole hvalid
      refine (returns_translateInbound hm hdec hlayer).bind fun ⟨d₂, p₂, ips₂⟩ ⟨htrans, _⟩ => ?_
      rcases ips₂ with _ | ips₂
      · exact .pure (.inl rfl)
      · have htrans := htrans rfl
        refine (returns_judgeInbound hm htrans.parsed.second).mono fun o ho => ?_
        exact .inr ⟨d₁, d₂, layer, _, _, hvalid, hlayer, htrans.port, ho⟩

end Manager

/-! ### Whole runs -/

namespace System

variable (gp : Gopacket) (visit : Keyed.Visit PeerRule)

def next (s : System) (i : ℤ × Input) : System :=
  match s.respond gp visit i with
  | .ok r => r.2
  | .error _ => s

/-- What an input does to the filter. -/
def Effect (s : System) (i : ℤ × Input) (drop : Bool) (m' : Manager) : Prop :=
  match i.2 with
  | .outbound choice packetData size =>
    s.manager.Sent gp i.1 (takeDecoder s.decoders choice).1 packetData size drop m'
  | .inbound choice packetData size =>
    s.manager.Filtered gp i.1 (takeDecoder s.decoders choice).1 packetData size m'
  | .rules _ _ => Manager.Does i.1 [] s.manager m'
  | .cleanupUDP => m' = s.manager.calls i.1 [.udp .cleanup]
  | .cleanupICMP => m' = s.manager.calls i.1 [.icmp .cleanup]
  | .cleanupTCP => m' = s.manager.calls i.1 [.tcp .cleanup]

variable {gp visit} {s : System} {i : ℤ × Input}

/-- Whatever the input, the filter makes calls on its trackers. -/
theorem Effect.does {drop : Bool} {m' : Manager} (h : s.Effect gp i drop m') :
    ∃ cs, Manager.Does i.1 cs s.manager m' := by
  obtain ⟨now, input⟩ := i
  cases input with
  | outbound choice packetData size =>
    obtain ⟨rfl, _⟩ | ⟨d, layer, _, _, rfl⟩ := h
    · exact ⟨[], .nothing⟩
    · exact ⟨_, .of_eq rfl⟩
  | inbound choice packetData size =>
    obtain rfl | ⟨_, _, _, _, _, _, _, _, cs, hdoes, _⟩ := h
    · exact ⟨[], .nothing⟩
    · exact ⟨cs, hdoes⟩
  | rules peerRules routeRules => exact ⟨[], h⟩
  | cleanupUDP | cleanupICMP | cleanupTCP => exact ⟨_, .of_eq h⟩

variable (hs : s.manager.Ready)

include hs

/-- **One input** is answered by a stateful filter. -/
theorem returns_respond :
    Returns (s.respond gp visit i) fun r => s.Effect gp i r.1 r.2.manager := by
  obtain ⟨now, input⟩ := i
  cases input with
  | outbound choice packetData size =>
    exact (Manager.returns_filterOutbound hs).bind fun o ho => .pure ho
  | inbound choice packetData size =>
    exact (Manager.returns_filterInbound hs).bind fun o ho => .pure ho
  | rules peerRules routeRules => exact .pure ⟨rfl, rfl, rfl, rfl⟩
  | cleanupUDP | cleanupICMP | cleanupTCP => exact .pure rfl

variable (gp visit i) in
theorem respond_eq_ok : ∃ drop, s.respond gp visit i = .ok (drop, s.next gp visit i) ∧
      s.Effect gp i drop (s.next gp visit i).manager := by
  obtain ⟨r, hr, heffect⟩ := returns_respond hs
  have hnext : s.next gp visit i = r.2 := by rw [next, hr]
  rw [hnext]
  exact ⟨r.1, hr, heffect⟩

theorem config_next : (s.next gp visit i).manager.config = s.manager.config := by
  obtain ⟨_, _, heffect⟩ := respond_eq_ok gp visit i hs
  obtain ⟨_, hdoes⟩ := heffect.does
  exact hdoes.config

theorem ready_next : (s.next gp visit i).manager.Ready :=
  hs.of_config (config_next hs)

theorem config_run {is : List (ℤ × Input)} :
    (is.foldl (next gp visit) s).manager.config = s.manager.config := by
  induction is generalizing s with
  | nil => rfl
  | cons i is ih => exact (ih (ready_next hs)).trans (config_next hs)

theorem ready_run {is : List (ℤ × Input)} : (is.foldl (next gp visit) s).manager.Ready :=
  hs.of_config (config_run hs)

/-- **A stateful filter answers every sequence** of packets. -/
theorem run_eq_ok (is : List (ℤ × Input)) :
    s.run gp visit is = .ok (is.foldl (next gp visit) s) := by
  induction is generalizing s with
  | nil => rfl
  | cons i is ih =>
    obtain ⟨drop, hr, _⟩ := respond_eq_ok gp visit i hs
    rw [run, List.foldlM_cons, hr, List.foldl_cons, ← ih (ready_next hs)]
    rfl

/-! ### Without connection tracking -/

omit hs

/-- An echo request from 10.0.0.1 to 10.0.0.2. -/
def echoRequest : Bytes :=
  packet28 1 [10, 0, 0, 1] [10, 0, 0, 2] [8, 0, 0, 0, 0, 1, 0, 0]

theorem decodeLayers_echoRequest (gp : Gopacket) (d : Decoder) : decodeLayers gp d echoRequest =
      ((Decoder.store { d with decoded := [] } (.ip4 ⟨5, false, 0, 1, [10, 0, 0, 1],
        [10, 0, 0, 2]⟩)).store (.icmp4 ⟨8, 0, 1, []⟩), true) :=
  decodeLayers_packet28 (.inl ⟨rfl, rfl⟩) rfl rfl rfl
    (by rw [decodeHeader, gp.icmpv4_reads rfl]; rfl) d

/-- Without a tracker for it, an echo request stops the filter. -/
theorem respond_echoRequest {m : Manager} (gp : Gopacket) (visit : Keyed.Visit PeerRule)
    (hnone : m.icmpTracker = none) :
    (System.mk m []).respond gp visit (0, .outbound 0 echoRequest 28) = .error .nilDereference := by
  obtain ⟨⟩ := m
  subst hnone
  simp only [respond, Manager.filterOutbound, decodeLayers_echoRequest]
  rfl

/-- **No sequence of packets stops the filter** if and only if connection tracking is enabled,
whatever else is configured. -/
theorem run_returns_iff (env : Manager.Env) (m : Manager) (hm : m.Configured env) (gp : Gopacket)
    (visit : Keyed.Visit PeerRule) :
    (∀ decoders is, ∃ s, (System.mk m decoders).run gp visit is = .ok s) ↔
      env.disableConntrack = false := by
  obtain ⟨hsound, hstateful⟩ := hm.sound
  constructor
  · intro hreturns
    cases hdisabled : env.disableConntrack with
    | false => rfl
    | true =>
      have hnone : m.icmpTracker = none := by
        rw [← Option.not_isSome_iff_eq_none, hsound.icmp, hstateful, hdisabled]
        decide
      obtain ⟨s, hs⟩ := hreturns [] [(0, .outbound 0 echoRequest 28)]
      rw [run, List.foldlM_cons, respond_echoRequest gp visit hnone] at hs
      nomatch hs
  · intro henabled decoders is
    have hready : m.Ready := ⟨hsound, by rw [hstateful, henabled]; rfl⟩
    exact ⟨_, run_eq_ok hready is⟩

/-- A filter at 10.0.0.1, with or without connection tracking. -/
def sampleEnv (disableConntrack : Bool) : Manager.Env where
  disableConntrack := disableConntrack
  enableLocalForwarding := false
  disableMSSClamping := false
  netstack := false
  forwarding := false
  isLocalIP ip := ip = [10, 0, 0, 1]
  wgIP := [10, 0, 0, 1]
  mtu := 1280

theorem sample_filter_returns : (sampleEnv false).disableConntrack = false ∧ ((∀ decoders is, ∃ s,
        (System.mk (.create (sampleEnv false)) decoders).run .plain .inOrder is = .ok s) ↔
          (sampleEnv false).disableConntrack = false) :=
  ⟨rfl, run_returns_iff (sampleEnv false) _ .create .plain .inOrder⟩

/-- An echo request, which can be decoded, stops a filter without connection tracking. -/
theorem echoRequest_panics : (decodeLayers .plain default echoRequest).2 = true ∧
      (System.mk (.create (sampleEnv true)) []).run .plain .inOrder
        [(0, .outbound 0 echoRequest 28)] = .error .nilDereference :=
  ⟨rfl, rfl⟩

end System

end Netbird.Firewall
