/-
Connection tracking (`uspfilter/conntrack`): what the trackers have in common, and the trackers
of UDP and ICMP.

A tracker keeps one entry for each tuple under which a first packet was tracked.  An outbound
packet belongs to the entry of the inverse tuple if there is one, and to that of its own tuple
otherwise; an inbound packet is valid if the inverse tuple has an entry that was seen within the
timeout.  UDP and ICMP differ in the tuples, in which packets open an entry and in which can be
answers (`Datagram`).

* `Tracker.change_step` — what one call does to the entry of a tuple.
-/
import Netbird.Firewall.Packet
import Netbird.Lib.Keyed
import Netbird.Lib.Runs

namespace Netbird.Conntrack

open AList
open Netbird.Firewall (Bytes)

/-! ### Connections and flow events -/

/-- `nftypes.Direction`, without the unknown one. -/
inductive Direction where
  | ingress
  | egress
  deriving DecidableEq

/-- `nftypes.Protocol`. -/
inductive FlowProtocol where
  | unknown
  | icmp
  | tcp
  | udp
  deriving DecidableEq

/-- `nftypes.Type`. -/
inductive EventType where
  | start
  | finish
  | drop
  deriving DecidableEq

/-- `nftypes.EventFields`. -/
structure EventFields where
  flowID : ℕ
  type : EventType
  ruleID : Bytes
  direction : Direction
  protocol : FlowProtocol
  sourceIP : Bytes
  destIP : Bytes
  sourcePort : UInt16
  destPort : UInt16
  icmpType : UInt8
  icmpCode : UInt8
  rxPackets : UInt64
  txPackets : UInt64
  rxBytes : UInt64
  txBytes : UInt64

/-- `BaseConnTrack`. The flow ID is a new UUID; a tracker numbers them. -/
structure BaseConnTrack where
  flowId : ℕ
  direction : Direction
  sourceIP : Bytes
  destIP : Bytes
  lastSeen : ℤ
  packetsTx : UInt64
  packetsRx : UInt64
  bytesTx : UInt64
  bytesRx : UInt64
  dnatOrigPort : UInt16
  deriving DecidableEq

namespace BaseConnTrack

variable (b : BaseConnTrack)

def updateLastSeen (now : ℤ) : BaseConnTrack := { b with lastSeen := now }

def updateCounters (direction : Direction) (bytes : ℕ) : BaseConnTrack :=
  match direction with
  | .egress =>
    { b with packetsTx := b.packetsTx + 1, bytesTx := b.bytesTx + UInt64.ofNat bytes }
  | .ingress =>
    { b with packetsRx := b.packetsRx + 1, bytesRx := b.bytesRx + UInt64.ofNat bytes }

def timeoutExceeded (now timeout : ℤ) : Bool := timeout < now - b.lastSeen

/-- `UpdateLastSeen` and `UpdateCounters`, as they are called for every packet. -/
def see (now : ℤ) (direction : Direction) (size : ℕ) : BaseConnTrack :=
  (b.updateLastSeen now).updateCounters direction size

@[simp] theorem see_lastSeen (now : ℤ) (direction : Direction) (size : ℕ) :
    (b.see now direction size).lastSeen = now := by
  cases direction <;> rfl

@[simp] theorem see_dnatOrigPort (now : ℤ) (direction : Direction)
    (size : ℕ) : (b.see now direction size).dnatOrigPort = b.dnatOrigPort := by
  cases direction <;> rfl

end BaseConnTrack

/-- A connection: the common part and what its protocol adds. -/
structure Conn (X : Type) extends BaseConnTrack where
  info : X
  deriving DecidableEq

/-- What flow events say about a connection beyond its common part. -/
class FlowInfo (X : Type) where
  protocol : FlowProtocol
  sourcePort : X → UInt16
  destPort : X → UInt16
  icmpType : X → UInt8
  icmpCode : X → UInt8

/-- `UDPTracker`, `ICMPTracker`: the table of connections. The tracker counts the UUIDs it has
made, and keeps the events it has given to its flow logger. -/
structure Tracker (κ X : Type) where
  connections : AList fun _ : κ => Conn X
  timeout : ℤ
  nextFlow : ℕ
  events : List EventFields

variable {κ X P : Type}

def Conn.event [FlowInfo X] (conn : Conn X) (typ : EventType) (ruleID : Bytes) : EventFields :=
  { flowID := conn.flowId
    type := typ
    ruleID := ruleID
    direction := conn.direction
    protocol := FlowInfo.protocol X
    sourceIP := conn.sourceIP
    destIP := conn.destIP
    sourcePort := FlowInfo.sourcePort conn.info
    destPort := FlowInfo.destPort conn.info
    icmpType := FlowInfo.icmpType conn.info
    icmpCode := FlowInfo.icmpCode conn.info
    rxPackets := conn.packetsRx
    txPackets := conn.packetsTx
    rxBytes := conn.bytesRx
    txBytes := conn.bytesTx }

def Conn.seen (conn : Conn X) (now : ℤ) (direction : Direction) (size : ℕ) : Conn X :=
  { conn with toBaseConnTrack := conn.toBaseConnTrack.see now direction size }

@[simp] theorem Conn.seen_lastSeen (conn : Conn X) (now : ℤ) (direction : Direction) (size : ℕ) :
    (conn.seen now direction size).lastSeen = now :=
  BaseConnTrack.see_lastSeen ..

@[simp] theorem Conn.seen_dnatOrigPort (conn : Conn X) (now : ℤ) (direction : Direction)
    (size : ℕ) : (conn.seen now direction size).dnatOrigPort = conn.dnatOrigPort :=
  BaseConnTrack.see_dnatOrigPort ..

/-! ### Protocols without states -/

/-- How UDP and ICMP packets are tracked: the tuple of a packet, which packets open an entry, and
which can be answers to one. -/
structure Datagram (P κ X : Type) where
  key : P → κ
  reverse : κ → κ
  reverse_reverse : ∀ k, reverse (reverse k) = k
  sourceIP : P → Bytes
  destIP : P → Bytes
  info : P → X
  opens : P → Bool
  replies : P → Bool

namespace Tracker

variable [DecidableEq κ] [FlowInfo X] (D : Datagram P κ X)

def new (timeout : ℤ) : Tracker κ X := ⟨∅, timeout, 0, []⟩

variable (t : Tracker κ X) (now : ℤ)

/-- `updateIfExists`: the port to restore, if the tuple has an entry. -/
def updateIfExists (key : κ) (direction : Direction) (size : ℕ) : Option UInt16 × Tracker κ X :=
  match t.connections.lookup key with
  | some conn =>
    (some conn.dnatOrigPort,
      { t with connections := t.connections.insert key (conn.seen now direction size) })
  | none => (none, t)

def newConn (p : P) (direction : Direction) (size : ℕ) (origPort : UInt16) : Conn X :=
  Conn.seen
    { flowId := t.nextFlow
      direction := direction
      sourceIP := D.sourceIP p
      destIP := D.destIP p
      lastSeen := 0
      packetsTx := 0
      packetsRx := 0
      bytesTx := 0
      bytesRx := 0
      dnatOrigPort := origPort
      info := D.info p } now direction size

/-- `track`. A packet that opens no entry is only reported, as a flow of its own. -/
def track (p : P) (direction : Direction) (ruleID : Bytes) (size : ℕ)
    (origPort : UInt16) : Tracker κ X :=
  match t.updateIfExists now (D.key p) direction size with
  | (some _, t) => t
  | (none, t) =>
    let conn := t.newConn D now p direction size origPort
    { t with
      connections := if D.opens p then t.connections.insert (D.key p) conn else t.connections
      nextFlow := t.nextFlow + 1
      events := t.events ++ [conn.event .start ruleID] }

/-- `TrackOutbound`: the port to restore in the packet. -/
def trackOutbound (p : P) (size : ℕ) : UInt16 × Tracker κ X :=
  match t.updateIfExists now (D.reverse (D.key p)) .egress size with
  | (some origPort, t) => (origPort, t)
  | (none, t) => (0, t.track D now p .egress [] size 0)

def trackInbound (p : P) (ruleID : Bytes) (size : ℕ) (dnatOrigPort : UInt16) : Tracker κ X :=
  t.track D now p .ingress ruleID size dnatOrigPort

def isValidInbound (p : P) (size : ℕ) : Bool × Tracker κ X :=
  if D.replies p then
    match t.connections.lookup (D.reverse (D.key p)) with
    | none => (false, t)
    | some conn =>
      if conn.timeoutExceeded now t.timeout then (false, t)
      else (true, { t with
        connections := t.connections.insert (D.reverse (D.key p)) (conn.seen now .ingress size) })
  else (false, t)

def cleanup : Tracker κ X :=
  let expired := t.connections.entries.filter fun e => e.2.timeoutExceeded now t.timeout
  { t with
    connections := Keyed.keep (fun _ conn => ! conn.timeoutExceeded now t.timeout) t.connections
    events := t.events ++ expired.map fun e => e.2.event .finish [] }

end Tracker

/-! ### Calls over time -/

/-- A call on a tracker, for a packet of type `P`. -/
inductive Call (P : Type) where
  | trackOutbound (p : P) (size : ℕ)
  | trackInbound (p : P) (ruleID : Bytes) (size : ℕ) (dnatOrigPort : UInt16)
  | isValidInbound (p : P) (size : ℕ)
  | cleanup

def Call.tracks : Call P → Option P
  | .trackOutbound p _ => some p
  | .trackInbound p _ _ _ => some p
  | .isValidInbound _ _ => none
  | .cleanup => none

def Call.packet : Call P → Option P
  | .trackOutbound p _ => some p
  | .trackInbound p _ _ _ => some p
  | .isValidInbound p _ => some p
  | .cleanup => none

/-- The port to restore in answers, for the connection that a call opens. -/
def Call.origPort : Call P → UInt16
  | .trackInbound _ _ _ dnatOrigPort => dnatOrigPort
  | _ => 0

theorem Call.tracks_eq_packet {c : Call P} {p : P} (h : c.tracks = some p) : c.packet = some p := by
  cases c with
  | trackOutbound _ _ | trackInbound _ _ _ _ => exact h
  | isValidInbound _ _ | cleanup => nomatch h

namespace Tracker

variable [DecidableEq κ] (D : Datagram P κ X)

/-- The tuple whose entry takes the packet of a call. -/
def target (t : Tracker κ X) (c : ℤ × Call P) : Option κ :=
  let own (p : P) : Option κ :=
    if D.key p ∈ t.connections ∨ D.opens p = true then some (D.key p) else none
  match c.2 with
  | .trackOutbound p _ =>
    if D.reverse (D.key p) ∈ t.connections then some (D.reverse (D.key p)) else own p
  | .trackInbound p _ _ _ => own p
  | .isValidInbound p size =>
    if (t.isValidInbound D c.1 p size).1 then some (D.reverse (D.key p)) else none
  | .cleanup => none

/-- What a call can do to the entry of a tuple: leave it alone, see a packet of it, open it, or
remove it after the timeout. -/
inductive Change (t : Tracker κ X) (c : ℤ × Call P) (k : κ) : Option (Conn X) → Prop
  | same (htarget : t.target D c ≠ some k) : Change t c k (t.connections.lookup k)
  | seen {conn : Conn X} {direction : Direction} {size : ℕ} (htarget : t.target D c = some k)
      (hconn : t.connections.lookup k = some conn) :
      Change t c k (some (conn.seen c.1 direction size))
  | opened {p : P} {direction : Direction} {size : ℕ}
      (htarget : t.target D c = some k) (hnone : t.connections.lookup k = none)
      (htracks : c.2.tracks = some p) (hopens : D.opens p = true) (hkey : D.key p = k) :
      Change t c k (some (t.newConn D c.1 p direction size c.2.origPort))
  | expired {conn : Conn X} (hcleanup : c.2 = .cleanup)
      (hconn : t.connections.lookup k = some conn)
      (hexpired : conn.timeoutExceeded c.1 t.timeout = true) : Change t c k none

variable {D} {t : Tracker κ X} {c : ℤ × Call P}

theorem Change.of_none {k : κ} (h : t.target D c = none) :
    Change D t c k (t.connections.lookup k) :=
  .same (by rw [h]; nofun)

theorem updateIfExists_of_some {now : ℤ} {key : κ} {conn : Conn X} {direction : Direction}
    {size : ℕ} (h : t.connections.lookup key = some conn) :
    t.updateIfExists now key direction size = (some conn.dnatOrigPort,
      { t with connections := t.connections.insert key (conn.seen now direction size) }) := by
  rw [updateIfExists, h]

theorem updateIfExists_of_none {now : ℤ} {key : κ} {direction : Direction} {size : ℕ}
    (h : t.connections.lookup key = none) :
    t.updateIfExists now key direction size = (none, t) := by
  rw [updateIfExists, h]

theorem Change.of_insert {key : κ} {conn : Conn X}
    (htarget : t.target D c = some key) (h : Change D t c key (some conn)) (k : κ) :
    Change D t c k ((t.connections.insert key conn).lookup k) := by
  by_cases hk : k = key
  · subst hk
    rwa [lookup_insert]
  · rw [lookup_insert_ne hk]
    exact .same fun h => hk (Option.some.inj (h.symm.trans htarget))

variable [FlowInfo X]

variable (D) in
def step (t : Tracker κ X) (c : ℤ × Call P) : Tracker κ X :=
  match c.2 with
  | .trackOutbound p size => (t.trackOutbound D c.1 p size).2
  | .trackInbound p ruleID size dnatOrigPort => t.trackInbound D c.1 p ruleID size dnatOrigPort
  | .isValidInbound p size => (t.isValidInbound D c.1 p size).2
  | .cleanup => t.cleanup c.1

theorem change_track {p : P} (direction : Direction) (ruleID : Bytes) (size : ℕ)
    (htracks : c.2.tracks = some p)
    (htarget : t.target D c = if D.key p ∈ t.connections ∨ D.opens p = true then some (D.key p)
      else none) (k : κ) :
    Change D t c k ((t.track D c.1 p direction ruleID size c.2.origPort).connections.lookup k) := by
  rw [track]
  rcases hconn : t.connections.lookup (D.key p) with _ | conn
  · rw [updateIfExists_of_none hconn]
    have hmem : D.key p ∉ t.connections := lookup_eq_none.mp hconn
    split_ifs with hopens
    · rw [if_pos (.inr hopens)] at htarget
      exact .of_insert htarget (.opened htarget hconn htracks hopens rfl) k
    · rw [if_neg (not_or.mpr ⟨hmem, hopens⟩)] at htarget
      exact .of_none htarget
  · rw [updateIfExists_of_some hconn]
    have hmem : D.key p ∈ t.connections := lookup_isSome.mp (by rw [hconn]; rfl)
    rw [if_pos (.inl hmem)] at htarget
    exact .of_insert htarget (.seen htarget hconn) k

/-- **One call**, as the entry of a tuple sees it. -/
theorem change_step (t : Tracker κ X) (c : ℤ × Call P) (k : κ) :
    Change D t c k ((t.step D c).connections.lookup k) := by
  obtain ⟨now, call⟩ := c
  cases call with
  | trackOutbound p size =>
    simp only [step, trackOutbound]
    rcases hconn : t.connections.lookup (D.reverse (D.key p)) with _ | conn
    · rw [updateIfExists_of_none hconn]
      have hmem : D.reverse (D.key p) ∉ t.connections := lookup_eq_none.mp hconn
      exact change_track (c := (now, .trackOutbound p size)) .egress [] size rfl (if_neg hmem) k
    · rw [updateIfExists_of_some hconn]
      have hmem : D.reverse (D.key p) ∈ t.connections :=
        lookup_isSome.mp (by rw [hconn]; rfl)
      have htarget : t.target D (now, .trackOutbound p size) = some _ := if_pos hmem
      exact .of_insert htarget (.seen htarget hconn) k
  | trackInbound p ruleID size origPort =>
    exact change_track (c := (now, .trackInbound p ruleID size origPort)) .ingress ruleID size rfl rfl k
  | isValidInbound p size =>
    simp only [step]
    have htarget : t.target D (now, .isValidInbound p size) =
      if (t.isValidInbound D now p size).1 then some (D.reverse (D.key p)) else none := rfl
    rw [isValidInbound] at htarget ⊢
    by_cases hreplies : D.replies p = true
    · simp only [if_pos hreplies] at htarget ⊢
      rcases hconn : t.connections.lookup (D.reverse (D.key p)) with _ | conn
      · simp only [hconn] at htarget ⊢
        exact .of_none htarget
      · simp only [hconn] at htarget ⊢
        by_cases hexp : conn.timeoutExceeded now t.timeout = true
        · simp only [if_pos hexp] at htarget ⊢
          exact .of_none htarget
        · simp only [if_neg hexp] at htarget ⊢
          exact .of_insert htarget (.seen htarget hconn) k
    · simp only [if_neg hreplies] at htarget ⊢
      exact .of_none htarget
  | cleanup =>
    simp only [step, cleanup, Keyed.lookup_keep]
    have hsame : Change D t (now, .cleanup) k (t.connections.lookup k) := .of_none rfl
    rcases hconn : t.connections.lookup k with _ | conn
    · rw [hconn] at hsame
      exact hsame
    · by_cases hexp : conn.timeoutExceeded now t.timeout = true
      · simp only [Option.filter, hexp, Bool.not_true, Bool.false_eq_true, if_false]
        exact .expired rfl hconn hexp
      · rw [hconn] at hsame
        simpa [Option.filter, hexp] using hsame

@[simp] theorem timeout_step (t : Tracker κ X) (c : ℤ × Call P) :
    (t.step D c).timeout = t.timeout := by
  obtain ⟨now, call⟩ := c
  have htrack : ∀ p direction ruleID size origPort,
      (t.track D now p direction ruleID size origPort).timeout = t.timeout := by
    intro p direction ruleID size origPort
    rw [track, updateIfExists]
    cases t.connections.lookup (D.key p) <;> rfl
  cases call with
  | trackOutbound p size =>
    simp only [step, trackOutbound, updateIfExists]
    rcases t.connections.lookup (D.reverse (D.key p)) with _ | conn
    · exact htrack ..
    · rfl
  | trackInbound p ruleID size origPort => exact htrack ..
  | isValidInbound p size =>
    simp only [step, isValidInbound]
    split
    · split
      · rfl
      · split <;> rfl
    · rfl
  | cleanup => rfl

/-- The tuple has an entry that was seen at the time or later. -/
def Fresh (t : Tracker κ X) (k : κ) (time : ℤ) : Prop :=
  ∃ conn, t.connections.lookup k = some conn ∧ time ≤ conn.lastSeen

/-- **An entry stays until the timeout** after a time at which it was seen. -/
theorem Fresh.step {k : κ} {time : ℤ} (h : t.Fresh k time) (hle : time ≤ c.1)
    (htimeout : c.1 ≤ time + t.timeout) : (t.step D c).Fresh k time := by
  obtain ⟨conn, hconn, hseen⟩ := h
  have hchange := change_step (D := D) t c k
  generalize hafter : (t.step D c).connections.lookup k = after at hchange
  cases hchange with
  | same _ => exact ⟨conn, hafter.trans hconn, hseen⟩
  | seen _ _ => exact ⟨_, hafter, by simpa using hle⟩
  | opened _ hnone => simp [hconn] at hnone
  | @expired conn' _ hconn' hexpired =>
    obtain rfl : conn = conn' := Option.some.inj (hconn.symm.trans hconn')
    have := of_decide_eq_true hexpired
    omega

end Tracker

/-! ### UDP and ICMP -/

/-- `ConnKey`: the addresses and ports of a packet. -/
structure ConnKey where
  srcIP : Bytes
  dstIP : Bytes
  srcPort : UInt16
  dstPort : UInt16
  deriving DecidableEq

def ConnKey.reverse (k : ConnKey) : ConnKey := ⟨k.dstIP, k.srcIP, k.dstPort, k.srcPort⟩

/-- What `UDPConnTrack` adds. -/
structure Ports where
  sourcePort : UInt16
  destPort : UInt16

instance : FlowInfo Ports where
  protocol := .udp
  sourcePort := Ports.sourcePort
  destPort := Ports.destPort
  icmpType _ := 0
  icmpCode _ := 0

/-- Every UDP packet opens an entry, and every one can be an answer. -/
def udp : Datagram ConnKey ConnKey Ports where
  key := id
  reverse := ConnKey.reverse
  reverse_reverse _ := rfl
  sourceIP := ConnKey.srcIP
  destIP := ConnKey.dstIP
  info k := ⟨k.srcPort, k.dstPort⟩
  opens _ := true
  replies _ := true

abbrev UDPTracker := Tracker ConnKey Ports

/-- `ICMPConnKey`: the addresses and the identifier of a packet. -/
structure ICMPConnKey where
  srcIP : Bytes
  dstIP : Bytes
  id : UInt16
  deriving DecidableEq

def ICMPConnKey.reverse (k : ICMPConnKey) : ICMPConnKey := ⟨k.dstIP, k.srcIP, k.id⟩

/-- What `ICMPConnTrack` adds. -/
structure TypeCode where
  icmpType : UInt8
  icmpCode : UInt8

instance : FlowInfo TypeCode where
  protocol := .icmp
  sourcePort _ := 0
  destPort _ := 0
  icmpType := TypeCode.icmpType
  icmpCode := TypeCode.icmpCode

/-- What the ICMP tracker is told about a packet. -/
structure ICMPPacket where
  key : ICMPConnKey
  typeCode : TypeCode

/-- Only an echo request opens an entry, and only an echo reply can be an answer. -/
def icmp : Datagram ICMPPacket ICMPConnKey TypeCode where
  key := ICMPPacket.key
  reverse := ICMPConnKey.reverse
  reverse_reverse _ := rfl
  sourceIP p := p.key.srcIP
  destIP p := p.key.dstIP
  info := ICMPPacket.typeCode
  opens p := p.typeCode.icmpType = 8
  replies p := p.typeCode.icmpType = 0

abbrev ICMPTracker := Tracker ICMPConnKey TypeCode

end Netbird.Conntrack
