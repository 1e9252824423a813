/-
Replies to outbound packets.

An outbound packet of UDP, or an echo request, opens an entry for its tuple, or refreshes the one
that is there, and the entry lets the replies in until the timeout.  But if there is an entry for
the inverse tuple, from an inbound packet, it takes the outbound packet, and the own entry is
neither opened nor refreshed: then the replies are left to the rules.

* `Exchange.letsIn_iff` — when the replies are let in, for one protocol;
* `System.replies_letIn_iff` — for UDP and for ICMP, after every history.
-/
import Netbird.Firewall.Safety

namespace Netbird

open List Option

/-! ### The entry of an outbound packet -/

namespace Conntrack.Tracker

variable {κ X P : Type} [DecidableEq κ] [FlowInfo X] {D : Datagram P κ X} {t : Tracker κ X}

/-- The entry that takes the packet of a call is fresh then. -/
theorem fresh_of_target {c : ℤ × Call P} {k : κ} (htarget : t.target D c = some k) :
    (t.step D c).Fresh k c.1 := by
  have hchange := change_step (D := D) t c k
  generalize hafter : (t.step D c).connections.lookup k = after at hchange
  cases hchange with
  | same hne => exact absurd htarget hne
  | seen _ _ => exact ⟨_, hafter, by simp⟩
  | opened _ _ _ _ _ => exact ⟨_, hafter, by simp [newConn]⟩
  | expired hcleanup _ _ =>
    obtain ⟨now, call⟩ := c
    obtain rfl : call = .cleanup := hcleanup
    nomatch htarget

variable (D t) in
/-- An outbound packet reaches its own entry: no entry of the inverse tuple takes it, or that is
its own, or its own was seen at that time. -/
def ReachesOwn (now : ℤ) (p : P) : Prop :=
  D.reverse (D.key p) ∉ t.connections ∨ D.reverse (D.key p) = D.key p ∨ t.Fresh (D.key p) now

/-- **An outbound packet leaves a fresh entry** exactly if it reaches its own. -/
theorem fresh_trackOutbound_iff {now : ℤ} {p : P} (size : ℕ) (hopens : D.opens p = true)
    (htimeout : 0 ≤ t.timeout) :
    (t.step D (now, .trackOutbound p size)).Fresh (D.key p) now ↔ t.ReachesOwn D now p := by
  by_cases hmem : D.reverse (D.key p) ∈ t.connections
  · have htarget : t.target D (now, .trackOutbound p size) = some (D.reverse (D.key p)) :=
      if_pos hmem
    by_cases hself : D.reverse (D.key p) = D.key p
    · exact iff_of_true (fresh_of_target (hself ▸ htarget)) (.inr (.inl hself))
    · rw [ReachesOwn, or_iff_right (not_not_intro hmem), or_iff_right hself]
      refine ⟨?_, fun hfresh => hfresh.step le_rfl (by simpa using htimeout)⟩
      rintro ⟨conn, hconn, hseen⟩
      have hchange := change_step (D := D) t (now, .trackOutbound p size) (D.key p)
      rw [hconn] at hchange
      generalize hafter : some conn = after at hchange
      cases hchange with
      | same _ => exact ⟨conn, hafter.symm, hseen⟩
      | seen htarget' _ | opened htarget' _ _ _ _ =>
        exact absurd (some.inj (htarget.symm.trans htarget')) hself
      | expired _ _ _ => nomatch hafter
  · exact iff_of_true (fresh_of_target (c := (now, .trackOutbound p size))
      ((if_neg hmem).trans (if_pos (.inr hopens)))) (.inl hmem)

omit [FlowInfo X] in
theorem isValidInbound_eq_true {now : ℤ} {q : P} {size : ℕ} (hreplies : D.replies q = true) :
    (t.isValidInbound D now q size).1 = true ↔ t.Fresh (D.reverse (D.key q)) (now - t.timeout) := by
  rw [isValidInbound, if_pos hreplies]
  rcases hconn : t.connections.lookup (D.reverse (D.key q)) with _ | conn
  · simp [Fresh, hconn]
  · by_cases hexp : conn.timeoutExceeded now t.timeout = true
    · have hlt : t.timeout < now - conn.lastSeen := of_decide_eq_true hexp
      simp only [if_pos hexp, Bool.false_eq_true, false_iff]
      rintro ⟨conn', hconn', hle⟩
      obtain rfl := some.inj (hconn.symm.trans hconn')
      omega
    · have hle : ¬ t.timeout < now - conn.lastSeen := fun h => hexp (decide_eq_true h)
      simp only [if_neg hexp, true_iff]
      exact ⟨conn, hconn, by omega⟩

end Conntrack.Tracker

namespace Firewall

open Conntrack

/-! ### Inbound packets without mappings -/

section Judge

variable {gp : Gopacket} {visit : Keyed.Visit PeerRule} {m m' : Manager} {now : ℤ} {d : Decoder}
  {srcIP dstIP packetData : Bytes} {size : ℕ} {layer : LayerType}

def Manager.NoNat (m : Manager) : Prop := m.portDnat.enabled = false ∧ m.dnat.enabled = false

theorem Manager.NoNat.of_config (hnat : m.NoNat) (h : m'.config = m.config) : m'.NoNat := by
  have hport := congrArg Manager.portDnat h
  have hdnat := congrArg Manager.dnat h
  simp only [Manager.config] at hport hdnat
  rw [Manager.NoNat, hport, hdnat]
  exact hnat

/-- The addresses of a packet with a transport header over IPv4. -/
theorem addr_of_transport {d₀ : Decoder} (hdec : decodeLayers gp d₀ packetData = (d, true))
    (hlayer : d.decoded[1]? = some layer) (ht : layer.isTransport = true) :
    (addrFromSlice d.ip4.srcIP).length = 4 ∧ (addrFromSlice d.ip4.dstIP).length = 4 ∧
      addrFromSlice d.ip4.srcIP = d.ip4.srcIP ∧ addrFromSlice d.ip4.dstIP = d.ip4.dstIP := by
  obtain ⟨_, payload, x, next, hip4, hx, _, rfl⟩ := decodeLayers_transport hdec hlayer ht
  obtain ⟨hdata, _, _, hsrc, hdst⟩ := gp.ipv4_fits hip4
  have hlen : d.ip4.srcIP.length = 4 ∧ d.ip4.dstIP.length = 4 := by
    rw [hsrc, hdst]
    simp only [length_take, length_drop]
    omega
  rw [addrFromSlice, addrFromSlice, if_pos (.inl hlen.1), if_pos (.inl hlen.2)]
  exact ⟨hlen.1, hlen.2, rfl, rfl⟩

theorem filterInbound_eq_judgeInbound {d' : Decoder} (hm : m.Ready) (hnat : m.NoNat)
    (hvalid : isValidPacket gp d packetData = (d', true, false))
    (hsrc : addrFromSlice d'.ip4.srcIP ≠ []) : m.filterInbound gp visit now d packetData size =
      m.judgeInbound visit now d' (addrFromSlice d'.ip4.srcIP) (addrFromSlice d'.ip4.dstIP)
        packetData size := by
  have hdec := decodeLayers_of_isValidPacket hvalid
  obtain ⟨layer, hlayer, _⟩ := isValidPacket_whole hvalid
  obtain ⟨ips, hips, rfl⟩ := Manager.returns_extractIPs (decodeLayers_first hdec)
  have hr : m.translateInbound gp d' (addrFromSlice d'.ip4.srcIP) (addrFromSlice d'.ip4.dstIP)
      packetData = .ok (d', packetData,
        some (addrFromSlice d'.ip4.srcIP, addrFromSlice d'.ip4.dstIP)) := by
    obtain ⟨r, hr, _, hsame⟩ := Manager.returns_translateInbound hm hdec hlayer
    rw [hr, hsame hnat.1 hnat.2]
  simp only [Manager.filterInbound, hvalid, hips, hr, Except.ok_bind, if_neg hsrc,
    Bool.false_eq_true, if_false]

theorem peerRules_calls (cs : List TrackerCall) : (m.calls now cs).peerRules = m.peerRules := by
  induction cs generalizing m with
  | nil => rfl
  | cons c cs ih =>
    have hcall : (m.call now c).peerRules = m.peerRules := by cases c <;> rfl
    exact ih.trans hcall

/-- Packets that the native router takes care of pass. -/
def Manager.Native (m : Manager) (dstIP : Bytes) : Prop :=
  m.isLocalIP dstIP = false ∧ m.routingEnabled = true ∧ m.nativeRouter = true

theorem Manager.native_of_config (h : m'.config = m.config) : m'.Native dstIP ↔ m.Native dstIP := by
  have hlocal := congrArg Manager.isLocalIP h
  have hrouting := congrArg Manager.routingEnabled h
  have hnative := congrArg Manager.nativeRouter h
  simp only [Manager.config] at hlocal hrouting hnative
  rw [Manager.Native, Manager.Native, hlocal, hrouting, hnative]

theorem returns_judgeInbound_of_native (hm : m.Ready) (hlayer : d.decoded[1]? = some layer)
    (hnative : m.Native dstIP) :
    Returns (m.judgeInbound visit now d srcIP dstIP packetData size) fun o => o.drop = false := by
  unfold Manager.judgeInbound
  rw [if_pos hm.stateful]
  refine (Manager.returns_isValidTrackedConnection hlayer hm).bind fun ⟨ok, m₁⟩ hm₁ => ?_
  obtain rfl : m₁ = _ := hm₁
  have hconfig : (m.calls now (validCalls layer d srcIP dstIP size)).config = m.config :=
    Manager.config_calls _
  have hready := hm.of_config hconfig
  obtain ⟨hlocal, hrouting, hrouter⟩ := (Manager.native_of_config hconfig).mpr hnative
  refine .ite (fun _ => .pure rfl) fun _ => ?_
  refine .ite (fun h => ?_) fun _ => ?_
  · rw [hlocal] at h
    nomatch h
  · unfold Manager.handleRoutedTraffic
    rw [hrouting, hrouter]
    exact (Manager.returns_trackInbound hlayer hready _).bind fun _ _ => .pure rfl

/-- Without rules, every other packet is dropped. -/
theorem returns_judgeInbound_of_noRules (hm : m.Ready) (hlayer : d.decoded[1]? = some layer)
    (ht : layer.isTransport = true) (hrules : m.peerRules = .empty)
    (hspecial : isSpecialICMP d = .ok false)
    (hvalid : m.isValidTrackedConnection now d srcIP dstIP size = .ok (false, m'))
    (hnative : ¬ m.Native dstIP) :
    Returns (m.judgeInbound visit now d srcIP dstIP packetData size) fun o => o.drop = true := by
  unfold Manager.judgeInbound
  rw [if_pos hm.stateful, hvalid, Except.ok_bind]
  have hm' : m' = _ := (Manager.returns_isValidTrackedConnection hlayer hm).of_eq_ok hvalid
  have hconfig : m'.config = m.config := hm' ▸ Manager.config_calls _
  rw [← Manager.native_of_config hconfig] at hnative
  rw [← peerRules_calls (validCalls layer d srcIP dstIP size), ← hm'] at hrules
  have hlog : ∀ ruleID, Returns (m'.logDrop d srcIP dstIP ruleID size) (Manager.Does now [] m') :=
    fun ruleID => Manager.returns_logDrop hlayer ruleID
  refine .ite (fun h => ?_) fun _ => .ite (fun _ => ?_) fun hlocal => ?_
  · nomatch h
  · unfold Manager.handleLocalTraffic
    have hknown : layer.known = true := by cases layer <;> first | rfl | cases ht
    obtain ⟨id, blocked, hblock, hiff⟩ :=
      RuleRun.sound_init.peerACLsBlock visit srcIP hlayer hknown hspecial
    obtain rfl : blocked = true := hiff.mpr (.inr nofun)
    rw [hrules, show peerACLsBlock visit .empty srcIP d = _ from hblock]
    exact (hlog _).bind fun _ _ => .pure rfl
  · refine .ite (fun _ => .pure rfl) fun hrouting => .ite (fun hrouter => ?_) fun _ => ?_
    · exact absurd ⟨by simpa using hlocal, by simpa using hrouting, hrouter⟩ hnative
    · refine Returns.bind_index hlayer ?_
      refine (Manager.returns_getPortsFromPacket hlayer).bind fun _ _ => ?_
      refine .ite (fun _ => ?_) fun _ => .pure rfl
      exact (hlog _).bind fun _ _ => .pure rfl

end Judge

/-! ### Requests and replies -/

/-- A protocol of requests and replies, as the filter tracks it. -/
structure Exchange (P κ X : Type) [DecidableEq κ] [FlowInfo X] where
  D : Datagram P κ X
  layer : LayerType
  tracker : Manager → Option (Tracker κ X)
  packet : Decoder → Bytes → Bytes → P
  call : Call P → TrackerCall
  isTransport : layer.isTransport = true
  callFor_layer : ∀ d srcIP dstIP (f : (P : Type) → P → Call P),
    callFor layer d srcIP dstIP f = [call (f P (packet d srcIP dstIP))]
  tracker_call : ∀ m now c,
    tracker (m.call now (call c)) = (tracker m).map (·.step D (now, c))
  tracker_other : ∀ (m : Manager) now c, (∀ c', c ≠ call c') → tracker (m.call now c) = tracker m
  tracker_does : ∀ {now cs m m'}, Manager.Does now cs m m' →
    tracker m' = tracker (m.calls now cs)
  exists_tracker : ∀ {m : Manager}, m.Ready → ∃ t, tracker m = some t
  isValid : ∀ {m : Manager} {t d}, tracker m = some t → d.decoded[1]? = some layer →
    ∀ now srcIP dstIP size, ∃ m', m.isValidTrackedConnection now d srcIP dstIP size =
      .ok ((t.isValidInbound D now (packet d srcIP dstIP) size).1, m')
  /-- replies go to where the request came from -/
  destIP_eq : ∀ {d d' : Decoder} {srcIP dstIP srcIP' dstIP'},
    D.key (packet d' srcIP' dstIP') = D.reverse (D.key (packet d srcIP dstIP)) → dstIP' = srcIP
  not_special : ∀ {d : Decoder} {srcIP dstIP}, d.decoded[1]? = some layer →
    D.replies (packet d srcIP dstIP) = true → isSpecialICMP d = .ok false
  /-- every request has a reply -/
  exists_reply : ∀ (d : Decoder) {srcIP dstIP : Bytes}, srcIP.length = 4 → dstIP.length = 4 →
    ∃ packetData, ∀ gp d₀, ∃ d', decodeLayers gp d₀ packetData = (d', true) ∧
      d'.decoded[1]? = some layer ∧ d'.ip4.srcIP = dstIP ∧ d'.ip4.dstIP = srcIP ∧
      D.key (packet d' dstIP srcIP) = D.reverse (D.key (packet d srcIP dstIP)) ∧
      D.replies (packet d' dstIP srcIP) = true

variable {s : System}

namespace Exchange

open Wire in
/-- The UDP packets are requests and replies. -/
def udp : Exchange ConnKey ConnKey Ports where
  D := Conntrack.udp
  layer := .udp
  tracker := Manager.udpTracker
  packet := udpKey
  call := .udp
  isTransport := rfl
  callFor_layer _ _ _ _ := rfl
  tracker_call _ _ _ := rfl
  tracker_other m now c hc := by
    cases c with
    | udp c => exact absurd rfl (hc c)
    | icmp c | tcp c => rfl
  tracker_does h := h.udp
  exists_tracker hm := Option.isSome_iff_exists.mp hm.udpTracker
  isValid ht hlayer now srcIP dstIP size := by
    simp only [Manager.isValidTrackedConnection, Checked.index_of_getElem? hlayer, ht,
      Checked.deref, Except.ok_bind]
    exact ⟨_, rfl⟩
  destIP_eq h := congrArg ConnKey.dstIP h
  not_special {d _ _} hlayer _ := by
    simp [isSpecialICMP, Checked.index_of_getElem? hlayer]
  exists_reply d {srcIP dstIP} hsrc hdst := by
    refine ⟨packet28 17 dstIP srcIP
      (bytes16 d.udp.dstPort ++ bytes16 d.udp.srcPort ++ [0, 8, 0, 0]), fun gp d₀ => ?_⟩
    have hheader : decodeHeader gp .udp
        (bytes16 d.udp.dstPort ++ bytes16 d.udp.srcPort ++ [0, 8, 0, 0]) =
        some (.udp ⟨d.udp.dstPort, d.udp.srcPort⟩, .zero, []) := by
      rw [decodeHeader, gp.udp_reads rfl (by simp [be16, bytes16])]
      simp [be16, bytes16]
    exact ⟨_, decodeLayers_packet28 (.inr ⟨rfl, rfl⟩) hdst hsrc rfl hheader d₀, rfl, rfl, rfl, rfl,
      rfl⟩

open Wire in
/-- The echo requests and replies. -/
def icmp : Exchange ICMPPacket ICMPConnKey TypeCode where
  D := Conntrack.icmp
  layer := .icmpv4
  tracker := Manager.icmpTracker
  packet := icmpPacket
  call := .icmp
  isTransport := rfl
  callFor_layer _ _ _ _ := rfl
  tracker_call _ _ _ := rfl
  tracker_other m now c hc := by
    cases c with
    | icmp c => exact absurd rfl (hc c)
    | udp c | tcp c => rfl
  tracker_does h := h.icmp
  exists_tracker hm := Option.isSome_iff_exists.mp hm.icmpTracker
  isValid ht hlayer now srcIP dstIP size := by
    simp only [Manager.isValidTrackedConnection, Checked.index_of_getElem? hlayer, ht,
      Checked.deref, Except.ok_bind]
    exact ⟨_, rfl⟩
  destIP_eq h := congrArg ICMPConnKey.dstIP h
  not_special {d _ _} hlayer hreplies := by
    have htype : d.icmp4.type = 0 := of_decide_eq_true hreplies
    simp [isSpecialICMP, Checked.index_of_getElem? hlayer, htype]
  exists_reply d {srcIP dstIP} hsrc hdst := by
    refine ⟨packet28 1 dstIP srcIP ([0, 0, 0, 0] ++ bytes16 d.icmp4.id ++ [0, 0]),
      fun gp d₀ => ?_⟩
    have hheader : decodeHeader gp .icmpv4
        ([0, 0, 0, 0] ++ bytes16 d.icmp4.id ++ [0, 0]) =
        some (.icmp4 ⟨0, 0, d.icmp4.id, []⟩, .zero, []) := by
      rw [decodeHeader, gp.icmpv4_reads rfl]
      simp [be16, bytes16]
    exact ⟨_, decodeLayers_packet28 (.inl ⟨rfl, rfl⟩) hdst hsrc rfl hheader d₀, rfl, rfl, rfl, rfl,
      rfl⟩

/-! ### The law of replies -/

section Law

variable {P κ X : Type} [DecidableEq κ] [FlowInfo X] (E : Exchange P κ X) {gp : Gopacket}
  {visit : Keyed.Visit PeerRule}

/-- What the tracker is told about a decoded packet. -/
def packetOf (d : Decoder) : P :=
  E.packet d (addrFromSlice d.ip4.srcIP) (addrFromSlice d.ip4.dstIP)

variable (gp visit) in
/-- Every reply to a packet of a time that comes no later than the deadline is let in, whatever
happens before. -/
def LetsIn (s : System) (time deadline : ℤ) (p : P) : Prop :=
  ∀ is s' now choice packetData size d,
    (∀ i ∈ is, time ≤ i.1 ∧ i.1 ≤ now) → time ≤ now → now ≤ deadline →
    s.run gp visit is = .ok s' →
    isValidPacket gp (takeDecoder s'.decoders choice).1 packetData = (d, true, false) →
    d.decoded[1]? = some E.layer → E.D.key (E.packetOf d) = E.D.reverse (E.D.key p) →
    E.D.replies (E.packetOf d) = true →
    ∃ s'', s'.respond gp visit (now, .inbound choice packetData size) = .ok (false, s'')

/-- The filter has a fresh entry in the tracker of the protocol. -/
def HasFresh (key : κ) (time timeout : ℤ) (m : Manager) : Prop :=
  ∃ t, E.tracker m = some t ∧ t.Fresh key time ∧ t.timeout = timeout

variable {E} {key : κ} {time timeout now : ℤ} {m m' : Manager}

theorem HasFresh.calls (h : E.HasFresh key time timeout m) (hle : time ≤ now)
    (htimeout : now ≤ time + timeout) (cs : List TrackerCall) :
    E.HasFresh key time timeout (m.calls now cs) := by
  induction cs generalizing m with
  | nil => exact h
  | cons c cs ih =>
    obtain ⟨t, ht, hfresh, rfl⟩ := h
    refine ih ?_
    by_cases hc : ∃ c', c = E.call c'
    · obtain ⟨c', rfl⟩ := hc
      refine ⟨t.step E.D (now, c'), ?_, hfresh.step hle htimeout, Tracker.timeout_step _ _⟩
      rw [E.tracker_call, ht]
      rfl
    · refine ⟨t, ?_, hfresh, rfl⟩
      rw [E.tracker_other m now c fun c' h => hc ⟨c', h⟩, ht]

/-- **A fresh entry stays until the timeout.** -/
theorem HasFresh.run (hs : s.manager.Ready)
    (h : E.HasFresh key time timeout s.manager) {is : List (ℤ × Input)}
    (htimes : ∀ i ∈ is, time ≤ i.1 ∧ i.1 ≤ time + timeout) :
    E.HasFresh key time timeout (is.foldl (System.next gp visit) s).manager := by
  induction is generalizing s with
  | nil => exact h
  | cons i is ih =>
    have hi := htimes i mem_cons_self
    obtain ⟨_, _, heffect⟩ := System.respond_eq_ok gp visit i hs
    obtain ⟨cs, hdoes⟩ := heffect.does
    refine ih (System.ready_next hs) ?_ fun i hi => htimes i (mem_cons_of_mem _ hi)
    rw [HasFresh, E.tracker_does hdoes]
    exact h.calls hi.1 hi.2 cs

variable {d : Decoder} {packetData : Bytes}

theorem respond_inbound {choice : ℕ} {size : ℕ}
    {drop : Bool} (hs : s.manager.Ready) (hnat : s.manager.NoNat)
    (hvalid : isValidPacket gp (takeDecoder s.decoders choice).1 packetData = (d, true, false))
    (hlayer : d.decoded[1]? = some E.layer)
    (h : Returns (s.manager.judgeInbound visit now d (addrFromSlice d.ip4.srcIP)
      (addrFromSlice d.ip4.dstIP) packetData size) fun o => o.drop = drop) :
    ∃ s', s.respond gp visit (now, .inbound choice packetData size) = .ok (drop, s') := by
  have haddr := addr_of_transport (decodeLayers_of_isValidPacket hvalid) hlayer E.isTransport
  have hsrc : addrFromSlice d.ip4.srcIP ≠ [] := ne_nil_of_length_eq_add_one haddr.1
  rw [← filterInbound_eq_judgeInbound hs hnat hvalid hsrc] at h
  obtain ⟨o, ho, rfl⟩ := h
  refine ⟨System.put (takeDecoder s.decoders choice).2 o, ?_⟩
  simp only [System.respond, ho, Except.ok_bind]
  rfl

variable {t : Tracker κ X}

theorem tracker_outbound {s s₁ : System} {choice : ℕ} {size : ℕ}
    (hs : s.manager.Ready) (ht : E.tracker s.manager = some t)
    (hdec : decodeLayers gp (takeDecoder s.decoders choice).1 packetData = (d, true))
    (hlayer : d.decoded[1]? = some E.layer)
    (hout : s.respond gp visit (now, .outbound choice packetData size) = .ok (false, s₁)) :
    E.tracker s₁.manager = some (t.step E.D (now, .trackOutbound (E.packetOf d) size)) ∧
      s₁.manager.config = s.manager.config := by
  have haddr := addr_of_transport hdec hlayer E.isTransport
  have heffect := (System.returns_respond hs).of_eq_ok hout
  obtain ⟨_, hnot⟩ | ⟨d₁, layer, hdec₁, hlayer₁, hcalls⟩ := heffect
  · have hlen : 2 ≤ d.decoded.length := (List.getElem?_eq_some_iff.mp hlayer).1
    exact absurd (hnot rfl d hdec hlen) (ne_nil_of_length_eq_add_one haddr.1)
  · obtain rfl : d = d₁ := (Prod.mk.inj (hdec.symm.trans hdec₁)).1
    obtain rfl : E.layer = layer := some.inj (hlayer.symm.trans hlayer₁)
    rw [outboundCalls, E.callFor_layer] at hcalls
    refine ⟨?_, hcalls ▸ Manager.config_calls _⟩
    rw [hcalls, Manager.calls, List.foldl_cons, List.foldl_nil, E.tracker_call, ht]
    rfl

theorem letsIn_of_hasFresh {p : P} (hs : s.manager.Ready) (hnat : s.manager.NoNat)
    (hfresh : E.HasFresh (E.D.key p) time timeout s.manager) :
    E.LetsIn gp visit s time (time + timeout) p := by
  intro is s' now choice packetData size d htimes _ hdeadline hrun hvalid hlayer hkey hreplies
  obtain rfl := Except.ok.inj ((System.run_eq_ok hs is).symm.trans hrun)
  have hready : (is.foldl (System.next gp visit) s).manager.Ready := System.ready_run hs
  have hfresh' : E.HasFresh (E.D.key p) time timeout (is.foldl (System.next gp visit) s).manager :=
    hfresh.run hs fun i hi => ⟨(htimes i hi).1, (htimes i hi).2.trans hdeadline⟩
  obtain ⟨t, ht, ⟨conn, hconn, hseen⟩, rfl⟩ := hfresh'
  have htrue : (t.isValidInbound E.D now (E.packetOf d) size).1 = true := by
    rw [Tracker.isValidInbound_eq_true hreplies, hkey, E.D.reverse_reverse]
    exact ⟨conn, hconn, by omega⟩
  obtain ⟨m', hm'⟩ := E.isValid ht hlayer now (addrFromSlice d.ip4.srcIP)
    (addrFromSlice d.ip4.dstIP) size
  rw [packetOf] at htrue
  rw [htrue] at hm'
  refine respond_inbound hready (hnat.of_config (System.config_run hs)) hvalid hlayer
    ⟨⟨false, m', d, packetData⟩, ?_, rfl⟩
  simp only [Manager.judgeInbound, if_pos hready.stateful, hm', Except.ok_bind, if_true]
  rfl

theorem letsIn_of_native (hs : s.manager.Ready)
    (hnat : s.manager.NoNat) (hnative : s.manager.Native (addrFromSlice d.ip4.srcIP))
    (deadline : ℤ) : E.LetsIn gp visit s time deadline (E.packetOf d) := by
  intro is s' now choice packetData size d' htimes _ hdeadline hrun hvalid hlayer hkey hreplies
  obtain rfl := Except.ok.inj ((System.run_eq_ok hs is).symm.trans hrun)
  have hconfig : (is.foldl (System.next gp visit) s).manager.config = s.manager.config :=
    System.config_run hs
  rw [← Manager.native_of_config hconfig, ← E.destIP_eq hkey] at hnative
  exact respond_inbound (hs.of_config hconfig) (hnat.of_config hconfig) hvalid hlayer
    (returns_judgeInbound_of_native (hs.of_config hconfig) hlayer hnative)

/-- Otherwise a reply at the deadline is dropped, after the rules were removed. -/
theorem not_letsIn (hs : s.manager.Ready)
    (hnat : s.manager.NoNat) (ht : E.tracker s.manager = some t) (htimeout : 0 ≤ t.timeout)
    (hsrc : (addrFromSlice d.ip4.srcIP).length = 4) (hdst : (addrFromSlice d.ip4.dstIP).length = 4)
    (hfresh : ¬ t.Fresh (E.D.key (E.packetOf d)) time)
    (hnative : ¬ s.manager.Native (addrFromSlice d.ip4.srcIP)) :
    ¬ E.LetsIn gp visit s time (time + t.timeout) (E.packetOf d) := by
  intro hletsIn
  obtain ⟨packetData, hreply⟩ := E.exists_reply d hsrc hdst
  -- the filter without rules
  let s' : System := ⟨{ s.manager with peerRules := .empty, routeRules := [] }, s.decoders⟩
  have hrun : s.run gp visit [(time, .rules .empty [])] = .ok s' := rfl
  have hdoes : Manager.Does time [] s.manager s'.manager := ⟨rfl, rfl, rfl, rfl⟩
  have hready : s'.manager.Ready := hs.of_config hdoes.config
  obtain ⟨d', hdec, hlayer, hsrc', hdst', hkey, hreplies⟩ := hreply gp (takeDecoder s'.decoders 0).1
  have haddr := addr_of_transport hdec hlayer E.isTransport
  have hpacket : E.packetOf d' =
      E.packet d' (addrFromSlice d.ip4.dstIP) (addrFromSlice d.ip4.srcIP) := by
    rw [packetOf, haddr.2.2.1, haddr.2.2.2, hsrc', hdst']
  rw [← hpacket] at hkey hreplies
  have hvalid := isValidPacket_of_decodeLayers hdec hlayer
  have hbefore : ∀ i ∈ [(time, Input.rules .empty [])], time ≤ i.1 ∧ i.1 ≤ time + t.timeout :=
    forall_mem_singleton.mpr ⟨le_rfl, by omega⟩
  obtain ⟨s₁, hs₁⟩ := hletsIn [(time, .rules .empty [])] s' (time + t.timeout) 0 packetData 0 d'
    hbefore (by omega) le_rfl hrun hvalid hlayer hkey hreplies
  have hinvalid : (t.isValidInbound E.D (time + t.timeout) (E.packetOf d') 0).1 = false := by
    rw [← Bool.not_eq_true, Tracker.isValidInbound_eq_true hreplies, hkey, E.D.reverse_reverse,
      add_sub_cancel_right]
    exact hfresh
  obtain ⟨m', hm'⟩ := E.isValid ((E.tracker_does hdoes).trans ht) hlayer (time + t.timeout)
    (addrFromSlice d'.ip4.srcIP) (addrFromSlice d'.ip4.dstIP) 0
  rw [packetOf] at hinvalid
  rw [hinvalid] at hm'
  have hnative' : ¬ s'.manager.Native (addrFromSlice d'.ip4.dstIP) := by
    rw [haddr.2.2.2, hdst']
    exact hnative
  obtain ⟨s₂, hs₂⟩ := respond_inbound hready (hnat.of_config rfl) hvalid hlayer
    (returns_judgeInbound_of_noRules hready hlayer E.isTransport rfl
      (E.not_special hlayer hreplies) hm' hnative')
  nomatch hs₁.symm.trans hs₂

/-- **When replies are let in**: no entry of the inverse tuple takes the request, or the own entry
is fresh anyway, or the native router takes the replies. -/
theorem letsIn_iff {s s₁ : System} {choice : ℕ} {size : ℕ}
    (hs : s.manager.Ready) (hnat : s.manager.NoNat)
    (ht : E.tracker s.manager = some t) (htimeout : 0 ≤ t.timeout)
    (hdec : decodeLayers gp (takeDecoder s.decoders choice).1 packetData = (d, true))
    (hlayer : d.decoded[1]? = some E.layer) (hopens : E.D.opens (E.packetOf d) = true)
    (hout : s.respond gp visit (now, .outbound choice packetData size) = .ok (false, s₁)) :
    E.LetsIn gp visit s₁ now (now + t.timeout) (E.packetOf d) ↔
      t.ReachesOwn E.D now (E.packetOf d) ∨ s.manager.Native (addrFromSlice d.ip4.srcIP) := by
  obtain ⟨ht₁, hconfig⟩ := tracker_outbound hs ht hdec hlayer hout
  have hready := hs.of_config hconfig
  have hnat₁ := hnat.of_config hconfig
  have hfresh : (t.step E.D (now, .trackOutbound (E.packetOf d) size)).Fresh _ now ↔ _ :=
    Tracker.fresh_trackOutbound_iff size hopens htimeout
  have htimeout₁ : (t.step E.D (now, .trackOutbound (E.packetOf d) size)).timeout = t.timeout :=
    Tracker.timeout_step _ _
  constructor
  · intro hletsIn
    by_contra hneither
    obtain ⟨hown, hnative⟩ := not_or.mp hneither
    have haddr := addr_of_transport hdec hlayer E.isTransport
    rw [← hfresh] at hown
    rw [← Manager.native_of_config hconfig] at hnative
    rw [← htimeout₁] at hletsIn htimeout
    exact not_letsIn hready hnat₁ ht₁ htimeout haddr.1 haddr.2.1 hown hnative hletsIn
  · rintro (hown | hnative)
    · exact letsIn_of_hasFresh hready hnat₁ ⟨_, ht₁, hfresh.mpr hown, htimeout₁⟩
    · exact letsIn_of_native hready hnat₁ ((Manager.native_of_config hconfig).mpr hnative) _

end Law

end Exchange

namespace System

/-- A configured filter with connection tracking has both trackers, with timeouts that are not
negative, after every sequence of packets. -/
theorem trackers_of_run {env : Manager.Env} {m : Manager} (hm : m.Configured env)
    (henabled : env.disableConntrack = false) (hconfig : s.manager.config = m.config) :
    (∃ t, s.manager.udpTracker = some t ∧ 0 ≤ t.timeout) ∧
      ∃ t, s.manager.icmpTracker = some t ∧ 0 ≤ t.timeout := by
  obtain ⟨hudp, hicmp, _⟩ := hm.trackers
  have hudp' := congrArg Manager.udpTracker hconfig
  have hicmp' := congrArg Manager.icmpTracker hconfig
  simp only [Manager.config, hudp, hicmp, Manager.create, henabled, Bool.false_eq_true, if_false,
    map_some] at hudp' hicmp'
  obtain ⟨t, ht, htimeout⟩ := map_eq_some_iff.mp hudp'
  obtain ⟨t', ht', htimeout'⟩ := map_eq_some_iff.mp hicmp'
  refine ⟨⟨t, ht, ?_⟩, t', ht', ?_⟩
  · have heq : t.timeout = Manager.defaultUDPTimeout := congrArg Tracker.timeout htimeout
    rw [heq]
    decide
  · have heq : t'.timeout = Manager.defaultICMPTimeout := congrArg Tracker.timeout htimeout'
    rw [heq]
    decide

/-- **Replies are let in** after an outbound UDP packet or echo request, whatever rules are
installed then, if and only if the packet reaches its own entry or the native router takes the
replies: for every history of a stateful filter without mappings. -/
theorem replies_letIn_iff (env : Manager.Env) (m : Manager) (hm : m.Configured env)
    (henabled : env.disableConntrack = false) (hnat : m.NoNat) (gp : Gopacket)
    (visit : Keyed.Visit PeerRule) (is : List (ℤ × Input)) (s s₁ : System)
    (hrun : (System.mk m []).run gp visit is = .ok s) (now : ℤ) (choice : ℕ) (packetData : Bytes)
    (size : ℕ) (d : Decoder)
    (hdec : decodeLayers gp (takeDecoder s.decoders choice).1 packetData = (d, true))
    (hout : s.respond gp visit (now, .outbound choice packetData size) = .ok (false, s₁)) :
    (d.decoded[1]? = some .udp → ∃ t, s.manager.udpTracker = some t ∧
      (Exchange.udp.LetsIn gp visit s₁ now (now + t.timeout) (Exchange.udp.packetOf d) ↔
        t.ReachesOwn Conntrack.udp now (Exchange.udp.packetOf d) ∨
          s.manager.Native (addrFromSlice d.ip4.srcIP))) ∧
    (d.decoded[1]? = some .icmpv4 → d.icmp4.type = 8 → ∃ t, s.manager.icmpTracker = some t ∧
      (Exchange.icmp.LetsIn gp visit s₁ now (now + t.timeout) (Exchange.icmp.packetOf d) ↔
        t.ReachesOwn Conntrack.icmp now (Exchange.icmp.packetOf d) ∨
          s.manager.Native (addrFromSlice d.ip4.srcIP))) := by
  obtain ⟨hsound, hstateful⟩ := hm.sound
  have hready : m.Ready := ⟨hsound, by rw [hstateful, henabled]; rfl⟩
  have hrun' : (System.mk m []).run gp visit is = .ok (is.foldl (next gp visit) ⟨m, []⟩) :=
    run_eq_ok hready is
  obtain rfl := Except.ok.inj (hrun'.symm.trans hrun)
  have hconfig : (is.foldl (next gp visit) ⟨m, []⟩).manager.config = m.config := config_run hready
  obtain ⟨⟨t, ht, htimeout⟩, t', ht', htimeout'⟩ := trackers_of_run hm henabled hconfig
  have hs := hready.of_config hconfig
  have hnat' := hnat.of_config hconfig
  refine ⟨fun hlayer => ⟨t, ht, ?_⟩, fun hlayer htype => ⟨t', ht', ?_⟩⟩
  · exact Exchange.letsIn_iff hs hnat' ht htimeout hdec hlayer rfl hout
  · exact Exchange.letsIn_iff hs hnat' ht' htimeout' hdec hlayer (decide_eq_true htype) hout

/-- A filter at 10.0.0.1 that accepts packets from 10.0.0.3. -/
def acceptFilter : Manager :=
  { Manager.create (sampleEnv false) with
    peerRules := (RuleRun.after [.add [1] [10, 0, 0, 3] .all none none .accept]).rules }

theorem acceptFilter_configured : acceptFilter.Configured (sampleEnv false) := .set .create rfl

theorem acceptFilter_ready : acceptFilter.Ready :=
  ⟨acceptFilter_configured.sound.1, acceptFilter_configured.sound.2⟩

/-- UDP packets between 10.0.0.1, port 1000, and 10.0.0.3, port 2000. -/
def udpRequest : Bytes :=
  packet28 17 [10, 0, 0, 1] [10, 0, 0, 3] [3, 232, 7, 208, 0, 8, 0, 0]

def udpAnswer : Bytes :=
  packet28 17 [10, 0, 0, 3] [10, 0, 0, 1] [7, 208, 3, 232, 0, 8, 0, 0]

def drops (s : System) (i : ℤ × Input) : Option Bool :=
  (s.respond .plain .inOrder i).toOption.map Prod.fst

theorem udpRequest_letsIn :
    (System.mk acceptFilter []).drops (1, .outbound 0 udpRequest 28) = some false ∧
      (decodeLayers .plain default udpRequest).1.decoded[1]? = some .udp ∧
      ∃ t, acceptFilter.udpTracker = some t ∧ (Exchange.udp.LetsIn .plain .inOrder
          ((System.mk acceptFilter []).next .plain .inOrder (1, .outbound 0 udpRequest 28)) 1
          (1 + t.timeout) (Exchange.udp.packetOf (decodeLayers .plain default udpRequest).1) ↔
            t.ReachesOwn Conntrack.udp 1
              (Exchange.udp.packetOf (decodeLayers .plain default udpRequest).1) ∨
              acceptFilter.Native
                (addrFromSlice (decodeLayers .plain default udpRequest).1.ip4.srcIP)) := by
  have hdrops : (System.mk acceptFilter []).drops (1, .outbound 0 udpRequest 28) = some false := by
    decide +kernel
  have hudp : (decodeLayers .plain default udpRequest).1.decoded[1]? = some .udp := by
    decide +kernel
  refine ⟨hdrops, hudp, ?_⟩
  obtain ⟨drop, hresponse, _⟩ := respond_eq_ok (s := ⟨acceptFilter, []⟩) .plain .inOrder
    (1, .outbound 0 udpRequest 28) acceptFilter_ready
  rw [drops, hresponse] at hdrops
  obtain rfl : drop = false := some.inj hdrops
  exact (replies_letIn_iff (sampleEnv false) acceptFilter acceptFilter_configured rfl ⟨rfl, rfl⟩
    .plain .inOrder [] _ _ rfl 1 0 udpRequest 28 _ (Prod.ext rfl (by decide +kernel))
    hresponse).1 hudp

/-- A packet from 10.0.0.3 was accepted; the request to it is taken by the entry of that packet,
and when the rule is gone the answer to the request is dropped. -/
theorem absorbed_request_answer_dropped :
    (System.mk acceptFilter []).drops (0, .inbound 0 udpAnswer 28) = some false ∧
      ((System.mk acceptFilter []).next .plain .inOrder (0, .inbound 0 udpAnswer 28)).drops
        (1, .outbound 0 udpRequest 28) = some false ∧
      ((((System.mk acceptFilter []).next .plain .inOrder (0, .inbound 0 udpAnswer 28)).next .plain
        .inOrder (1, .outbound 0 udpRequest 28)).next .plain .inOrder (2, .rules .empty [])).drops
          (3, .inbound 0 udpAnswer 28) = some true := by
  refine ⟨by decide +kernel, by decide +kernel, by decide +kernel⟩

end System

end Firewall

end Netbird
