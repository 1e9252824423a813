/-
The TCP tracker (`uspfilter/conntrack/tcp.go`).

An entry has a state, which the flags of the packets of its connection move on, and a tombstone,
which marks it as gone: it is set when the connection is reset or closed, and an entry that has it
takes no packet any more, until it is replaced by a new one or removed.

* `TCPTracker.change_step` — what one call does to the entry of a tuple.
-/
import Netbird.Firewall.Conntrack

namespace Netbird.Conntrack

open Netbird.Firewall (Bytes)

/-! ### Entries -/

inductive TCPState where
  | new
  | synSent
  | synReceived
  | established
  | finWait1
  | finWait2
  | closing
  | timeWait
  | closeWait
  | lastAck
  | closed
  deriving DecidableEq

/-- What `TCPConnTrack` adds. -/
structure TCPInfo where
  sourcePort : UInt16
  destPort : UInt16
  state : TCPState
  tombstone : Bool

instance : FlowInfo TCPInfo where
  protocol := .tcp
  sourcePort := TCPInfo.sourcePort
  destPort := TCPInfo.destPort
  icmpType _ := 0
  icmpCode _ := 0

abbrev TCPConnTrack := Conn TCPInfo

/-- `flags&flag != 0`. -/
def hasFlag (flags flag : UInt8) : Bool := flags &&& flag ≠ 0

def tcpFin : UInt8 := 0x01
def tcpSyn : UInt8 := 0x02
def tcpRst : UInt8 := 0x04
def tcpPush : UInt8 := 0x08
def tcpAck : UInt8 := 0x10
def tcpUrg : UInt8 := 0x20

namespace TCPConnTrack

variable (conn : TCPConnTrack)

def setState (state : TCPState) : TCPConnTrack :=
  { conn with info := { conn.info with state := state } }

/-- The state is set to Closed, and the tombstone. -/
def close : TCPConnTrack :=
  { conn with info := { conn.info with state := .closed, tombstone := true } }

def isSupersededBy (flags : UInt8) : Bool :=
  conn.info.tombstone ||
    (hasFlag flags tcpSyn && ! hasFlag flags tcpAck && conn.info.state = .timeWait)

/-- The switch of `updateState`: the state after a packet without RST, if it changes. -/
def nextState (flags : UInt8) (packetDir : Direction) : Option TCPState :=
  let syn := hasFlag flags tcpSyn
  let ack := hasFlag flags tcpAck
  let fin := hasFlag flags tcpFin
  match conn.info.state with
  | .new =>
    if syn ∧ ¬ ack then
      if conn.direction = .egress then some .synSent else some .synReceived
    else none
  | .synSent =>
    if syn ∧ ack then
      if packetDir ≠ conn.direction then some .established else some .synReceived
    else none
  | .synReceived =>
    if ack ∧ ¬ syn then
      if packetDir = conn.direction then some .established else none
    else none
  | .established =>
    if fin then
      if packetDir = conn.direction then some .finWait1 else some .closeWait
    else none
  | .finWait1 =>
    if packetDir ≠ conn.direction then
      if fin ∧ ack then some .closing
      else if fin then some .closing
      else if ack then some .finWait2
      else none
    else none
  | .finWait2 => if fin then some .timeWait else none
  | .closing => if ack then some .timeWait else none
  | .closeWait => if fin then some .lastAck else none
  | .lastAck => if ack then some .closed else none
  | .timeWait => none
  | .closed => none

/-- What `updateState` makes of the connection. -/
def updated (now : ℤ) (flags : UInt8) (packetDir : Direction) (size : ℕ) : TCPConnTrack :=
  let conn : TCPConnTrack := conn.seen now packetDir size
  if hasFlag flags tcpRst then conn.close
  else
    match conn.nextState flags packetDir with
    | none => conn
    | some .closed => conn.close
    | some state => conn.setState state

/-- The packet ends the flow: `updateState` sends an event. -/
def ends (flags : UInt8) (packetDir : Direction) : Bool :=
  hasFlag flags tcpRst || conn.nextState flags packetDir = some .timeWait ||
    conn.nextState flags packetDir = some .closed

end TCPConnTrack

section Updated

variable {conn : TCPConnTrack} {now : ℤ} {flags : UInt8} {packetDir : Direction} {size : ℕ}

/-- The entry was neither reset nor closed. -/
def TCPConnTrack.Open (conn : TCPConnTrack) : Prop :=
  conn.info.tombstone = false ∧ conn.info.state ≠ .closed

/-- An entry that is open was open before, and its packet was no reset. -/
theorem TCPConnTrack.Open.of_updated (h : (conn.updated now flags packetDir size).Open) :
    conn.Open ∧ hasFlag flags tcpRst = false := by
  unfold TCPConnTrack.updated at h
  cases hrst : hasFlag flags tcpRst with
  | true => simp [hrst, close, Open] at h
  | false =>
    refine ⟨?_, rfl⟩
    simp only [hrst, Bool.false_eq_true, if_false] at h
    split at h
    · exact h
    · simp [close, Open] at h
    · rename_i state hne hnext
      refine ⟨h.1, fun hclosed => ?_⟩
      -- nothing follows Closed
      have hnone : nextState (conn.seen now packetDir size) flags packetDir = none := by
        have hstate : (conn.seen now packetDir size).info.state = .closed := hclosed
        rw [nextState, hstate]
      rw [hnone] at hnext
      nomatch hnext

def TCPConnTrack.Gone (conn : TCPConnTrack) : Prop :=
  conn.info.state = .closed → conn.info.tombstone = true

theorem TCPConnTrack.Gone.updated (h : conn.Gone) :
    (conn.updated now flags packetDir size).Gone := by
  unfold TCPConnTrack.updated
  cases hasFlag flags tcpRst with
  | true => exact fun _ => rfl
  | false =>
    simp only [Bool.false_eq_true, if_false]
    split
    · exact h
    · exact fun _ => rfl
    · rename_i state hne _
      intro hclosed
      exact absurd hclosed hne

end Updated

def isValidFlagCombination (flags : UInt8) : Bool :=
  if hasFlag flags tcpSyn ∧ hasFlag flags tcpFin then false
  else if hasFlag flags tcpRst ∧ (hasFlag flags tcpSyn ∨ hasFlag flags tcpFin) then false
  else true

def isValidStateForFlags (state : TCPState) (flags : UInt8) : Bool :=
  let syn := hasFlag flags tcpSyn
  let ack := hasFlag flags tcpAck
  let fin := hasFlag flags tcpFin
  if ! isValidFlagCombination flags then false
  else if hasFlag flags tcpRst then
    if state = .synSent then ack else true
  else
    match state with
    | .new => syn && ! ack
    | .synSent => syn && ack
    | .synReceived => ack
    | .established => ack
    | .finWait1 => fin || ack
    | .finWait2 => fin || ack
    | .closing => ack
    | .timeWait => ack
    | .closeWait => fin || ack
    | .lastAck => ack
    | .closed => ack

/-! ### The tracker -/

structure TCPTracker extends Tracker ConnKey TCPInfo where
  waitTimeout : ℤ

/-- What the TCP tracker is told about a packet. -/
structure TCPPacket where
  key : ConnKey
  flags : UInt8

namespace TCPTracker

def tcpHandshakeTimeout : ℤ := 60 * 1000000000

def new (timeout waitTimeout : ℤ) : TCPTracker := { Tracker.new timeout with waitTimeout }

variable (t : TCPTracker)

def sendEvent (typ : EventType) (conn : TCPConnTrack) (ruleID : Bytes) : TCPTracker :=
  { t with events := t.events ++ [conn.event typ ruleID] }

variable (now : ℤ)

/-- The state machine, with the event that ends a flow. -/
def updateState (conn : TCPConnTrack) (flags : UInt8)
    (packetDir : Direction) (size : ℕ) : TCPConnTrack × TCPTracker :=
  let conn' := conn.updated now flags packetDir size
  (conn', if conn.ends flags packetDir then t.sendEvent .finish conn' [] else t)

def updateIfExists (key : ConnKey) (flags : UInt8)
    (direction : Direction) (size : ℕ) : Option UInt16 × TCPTracker :=
  match t.connections.lookup key with
  | none => (none, t)
  | some conn =>
    if TCPConnTrack.isSupersededBy conn flags then (none, t)
    else
      let (conn', t) := t.updateState now conn flags direction size
      (some conn.dnatOrigPort, { t with connections := t.connections.insert key conn' })

variable (p : TCPPacket)

/-- The connection that `track` makes, before its first packet. -/
def newConn (direction : Direction) (origPort : UInt16) : TCPConnTrack :=
  { flowId := t.nextFlow
    direction := direction
    sourceIP := p.key.srcIP
    destIP := p.key.dstIP
    lastSeen := 0
    packetsTx := 0
    packetsRx := 0
    bytesTx := 0
    bytesRx := 0
    dnatOrigPort := origPort
    info := ⟨p.key.srcPort, p.key.dstPort, .new, false⟩ }

/-- Only a SYN opens an entry. -/
def track (direction : Direction) (ruleID : Bytes) (size : ℕ) (origPort : UInt16) : TCPTracker :=
  match t.updateIfExists now p.key p.flags direction size with
  | (some _, t) => t
  | (none, t) =>
    if ! hasFlag p.flags tcpSyn then t
    else
      let conn := t.newConn p direction origPort
      let (conn, t) := t.updateState now conn p.flags direction size
      let t := { t with
        connections := t.connections.insert p.key conn
        nextFlow := t.nextFlow + 1 }
      t.sendEvent .start conn ruleID

/-- `TrackOutbound`: the port to restore in the packet. -/
def trackOutbound (size : ℕ) : UInt16 × TCPTracker :=
  match t.updateIfExists now p.key.reverse p.flags .egress size with
  | (some origPort, t) => (origPort, t)
  | (none, t) => (0, t.track now p .egress [] size 0)

def trackInbound (ruleID : Bytes) (size : ℕ) (dnatOrigPort : UInt16) : TCPTracker :=
  t.track now p .ingress ruleID size dnatOrigPort

/-- Whether an entry of the inverse tuple takes the packet. -/
def isValidInbound (size : ℕ) : Bool × TCPTracker :=
  match t.connections.lookup p.key.reverse with
  | none => (false, t)
  | some conn =>
    if TCPConnTrack.isSupersededBy conn p.flags then (false, t)
    else if ! isValidStateForFlags conn.info.state p.flags then
      -- all flags are allowed for an established connection
      (conn.info.state = .established, t)
    else
      let (conn, t) := t.updateState now conn p.flags .ingress size
      (true, { t with connections := t.connections.insert p.key.reverse conn })

/-- `cleanup` removes the connection. -/
def stale (conn : TCPConnTrack) : Bool :=
  let timeout :=
    match conn.info.state with
    | .timeWait => t.waitTimeout
    | .established => t.timeout
    | _ => tcpHandshakeTimeout
  conn.info.tombstone || conn.timeoutExceeded now timeout

/-- `cleanup`: a connection that was reported as ended is removed without an event. -/
def cleanup : TCPTracker :=
  let removed := t.connections.entries.filter fun e =>
    t.stale now e.2 && ! e.2.info.tombstone && e.2.info.state ≠ .timeWait
  { t with
    connections := Keyed.keep (fun _ conn => ! t.stale now conn) t.connections
    events := t.events ++ removed.map fun e => e.2.event .finish [] }

/-! ### One call -/

def step (c : ℤ × Call TCPPacket) : TCPTracker :=
  match c.2 with
  | .trackOutbound p size => (t.trackOutbound c.1 p size).2
  | .trackInbound p ruleID size dnatOrigPort => t.trackInbound c.1 p ruleID size dnatOrigPort
  | .isValidInbound p size => (t.isValidInbound c.1 p size).2
  | .cleanup => t.cleanup c.1

/-- The tuple has an entry that takes a packet with these flags. -/
def live (key : ConnKey) (flags : UInt8) : Bool :=
  match t.connections.lookup key with
  | none => false
  | some conn => ! TCPConnTrack.isSupersededBy conn flags

/-- The tuple whose entry takes the packet of a call, through `updateState`. -/
def target (c : Call TCPPacket) : Option ConnKey :=
  let own (p : TCPPacket) : Option ConnKey :=
    if t.live p.key p.flags ∨ hasFlag p.flags tcpSyn then some p.key else none
  match c with
  | .trackOutbound p _ => if t.live p.key.reverse p.flags then some p.key.reverse else own p
  | .trackInbound p _ _ _ => own p
  | .isValidInbound p _ =>
    match t.connections.lookup p.key.reverse with
    | none => none
    | some conn =>
      if ¬ TCPConnTrack.isSupersededBy conn p.flags ∧ isValidStateForFlags conn.info.state p.flags
      then some p.key.reverse else none
  | .cleanup => none

/-- What a call can do to the entry of a tuple: leave it alone, move its state on, open a new one,
or remove it. -/
inductive Change (t : TCPTracker) (c : ℤ × Call TCPPacket) (k : ConnKey) :
    Option TCPConnTrack → Prop
  | same (htarget : t.target c.2 ≠ some k) : Change t c k (t.connections.lookup k)
  | updated {conn : TCPConnTrack} {flags : UInt8} {direction : Direction} {size : ℕ}
      (htarget : t.target c.2 = some k) (hconn : t.connections.lookup k = some conn)
      (hflags : c.2.packet.map TCPPacket.flags = some flags)
      (hlive : conn.isSupersededBy flags = false) :
      Change t c k (some (conn.updated c.1 flags direction size))
  | opened {p : TCPPacket} {direction : Direction} {size : ℕ}
      (htarget : t.target c.2 = some k) (hlive : t.live k p.flags = false)
      (htracks : c.2.tracks = some p) (hsyn : hasFlag p.flags tcpSyn = true) (hkey : p.key = k) :
      Change t c k
        (some ((t.newConn p direction c.2.origPort).updated c.1 p.flags direction size))
  | removed {conn : TCPConnTrack} (hcleanup : c.2 = .cleanup)
      (hconn : t.connections.lookup k = some conn) (hstale : t.stale c.1 conn = true) :
      Change t c k none

/-- An entry takes a packet. -/
def put (key : ConnKey) (conn : TCPConnTrack) (flags : UInt8)
    (direction : Direction) (size : ℕ) : TCPTracker :=
  let (conn, t) := t.updateState now conn flags direction size
  { t with connections := t.connections.insert key conn }

/-- The end of `track`: a new entry, with its first packet. -/
def openConn (direction : Direction) (ruleID : Bytes) (size : ℕ) (origPort : UInt16) : TCPTracker :=
  let conn := t.newConn p direction origPort
  let t := t.put now p.key conn p.flags direction size
  { t with nextFlow := t.nextFlow + 1 }.sendEvent .start
    (conn.updated now p.flags direction size) ruleID

/-- What a call can do: nothing, or an entry takes its packet, or it opens an entry, or it removes
entries. -/
inductive Steps (t : TCPTracker) (c : ℤ × Call TCPPacket) : TCPTracker → Prop
  | idle (htarget : t.target c.2 = none) : Steps t c t
  | taken {key : ConnKey} {conn : TCPConnTrack} {flags : UInt8} {direction : Direction} {size : ℕ}
      (htarget : t.target c.2 = some key) (hconn : t.connections.lookup key = some conn)
      (hflags : c.2.packet.map TCPPacket.flags = some flags)
      (hlive : conn.isSupersededBy flags = false) :
      Steps t c (t.put c.1 key conn flags direction size)
  | opened {p : TCPPacket} {direction : Direction} {ruleID : Bytes} {size : ℕ}
      (htarget : t.target c.2 = some p.key) (hlive : t.live p.key p.flags = false)
      (htracks : c.2.tracks = some p) (hsyn : hasFlag p.flags tcpSyn = true) :
      Steps t c (t.openConn c.1 p direction ruleID size c.2.origPort)
  | cleaned (hcleanup : c.2 = .cleanup) : Steps t c (t.cleanup c.1)

variable {t : TCPTracker} {c : ℤ × Call TCPPacket}

theorem connections_put (now : ℤ) (key : ConnKey) (conn : TCPConnTrack) (flags : UInt8)
    (direction : Direction) (size : ℕ) : (t.put now key conn flags direction size).connections =
      t.connections.insert key (conn.updated now flags direction size) := by
  unfold put updateState
  split_ifs <;> rfl

/-- `updateIfExists` finds an entry exactly if it takes the packet. -/
theorem updateIfExists_cases (t : TCPTracker) (now : ℤ) (key : ConnKey) (flags : UInt8)
    (direction : Direction) (size : ℕ) :
    (t.live key flags = false ∧ t.updateIfExists now key flags direction size = (none, t)) ∨
      ∃ conn : TCPConnTrack, t.live key flags = true ∧
        t.connections.lookup key = some conn ∧ conn.isSupersededBy flags = false ∧
        t.updateIfExists now key flags direction size =
          (some conn.dnatOrigPort, t.put now key conn flags direction size) := by
  unfold live updateIfExists
  rcases hconn : t.connections.lookup key with _ | conn
  · exact .inl ⟨rfl, rfl⟩
  · cases hsup : TCPConnTrack.isSupersededBy conn flags
    · exact .inr ⟨conn, by simp [hsup], rfl, hsup, by simp [hsup, put]⟩
    · exact .inl ⟨by simp [hsup], by simp [hsup]⟩

theorem steps_track {p : TCPPacket} (direction : Direction) (ruleID : Bytes) (size : ℕ)
    (htracks : c.2.tracks = some p)
    (htarget : t.target c.2 = if t.live p.key p.flags ∨ hasFlag p.flags tcpSyn then some p.key
      else none) : Steps t c (t.track c.1 p direction ruleID size c.2.origPort) := by
  rw [track]
  obtain ⟨hlive, hnone⟩ | ⟨conn, hlive, hconn, hsup, hsome⟩ :=
    updateIfExists_cases t c.1 p.key p.flags direction size
  · rw [hnone]
    by_cases hsyn : hasFlag p.flags tcpSyn = true
    · rw [if_pos (.inr hsyn)] at htarget
      rw [hsyn]
      exact .opened htarget hlive htracks hsyn
    · rw [if_neg (by simp [hlive, hsyn])] at htarget
      simpa [hsyn] using Steps.idle htarget
  · rw [if_pos (.inl hlive)] at htarget
    rw [hsome]
    exact .taken htarget hconn (by rw [Call.tracks_eq_packet htracks]; rfl) hsup

/-- **One call.** -/
theorem steps_step (t : TCPTracker) (c : ℤ × Call TCPPacket) : Steps t c (t.step c) := by
  obtain ⟨now, call⟩ := c
  cases call with
  | trackOutbound p size =>
    simp only [step, trackOutbound]
    obtain ⟨hlive, hnone⟩ | ⟨conn, hlive, hconn, hsup, hsome⟩ :=
      updateIfExists_cases t now p.key.reverse p.flags .egress size
    · rw [hnone]
      exact steps_track (c := (now, .trackOutbound p size)) .egress [] size rfl
        (if_neg (by simp [hlive]))
    · rw [hsome]
      exact .taken (if_pos hlive) hconn rfl hsup
  | trackInbound p ruleID size origPort =>
    exact steps_track (c := (now, .trackInbound p ruleID size origPort)) .ingress ruleID size rfl rfl
  | isValidInbound p size =>
    simp only [step, isValidInbound]
    rcases hconn : t.connections.lookup p.key.reverse with _ | conn
    · exact .idle (by simp [target, hconn])
    · cases hsup : TCPConnTrack.isSupersededBy conn p.flags with
      | true =>
        simp only [hsup, if_true]
        exact .idle (by simp [target, hconn, hsup])
      | false =>
        cases hvalid : isValidStateForFlags conn.info.state p.flags
        · simp only [hsup, hvalid, Bool.not_false, if_true]
          exact .idle (by simp [target, hconn, hvalid])
        · simp only [hsup, hvalid]
          exact .taken (by simp [target, hconn, hsup, hvalid]) hconn rfl hsup
  | cleanup => exact .cleaned rfl

theorem Change.of_insert {key : ConnKey} {conn : TCPConnTrack}
    (htarget : t.target c.2 = some key) (h : Change t c key (some conn)) (k : ConnKey) :
    Change t c k ((t.connections.insert key conn).lookup k) := by
  by_cases hk : k = key
  · subst hk
    rwa [AList.lookup_insert]
  · rw [AList.lookup_insert_ne hk]
    exact .same fun h => hk (Option.some.inj (h.symm.trans htarget))

/-- … as the entry of a tuple sees it. -/
theorem change_step (t : TCPTracker) (c : ℤ × Call TCPPacket) (k : ConnKey) :
    Change t c k ((t.step c).connections.lookup k) := by
  generalize hstep : t.step c = t'
  obtain htarget | ⟨htarget, hconn, hflags, hlive⟩ | ⟨htarget, hlive, htracks, hsyn⟩ | hcleanup :=
    hstep ▸ steps_step t c
  · exact .same (by simp [htarget])
  · rw [connections_put]
    exact .of_insert htarget (.updated htarget hconn hflags hlive) k
  · rw [openConn, connections_put]
    exact .of_insert htarget (.opened htarget hlive htracks hsyn rfl) k
  · simp only [cleanup, Keyed.lookup_keep]
    have hsame : Change t c k (t.connections.lookup k) := .same (by simp [target, hcleanup])
    rcases hconn : t.connections.lookup k with _ | conn
    · simpa [hconn] using hsame
    · rw [hconn] at hsame
      cases hstale : t.stale c.1 conn
      · simpa [Option.filter, hstale] using hsame
      · simpa [Option.filter, hstale] using Change.removed hcleanup hconn hstale

/-- **A closed entry has the tombstone**, after every sequence of calls. -/
theorem gone (timeout waitTimeout : ℤ) (cs : List (ℤ × Call TCPPacket)) {k : ConnKey}
    {conn : TCPConnTrack}
    (h : (cs.foldl step (new timeout waitTimeout)).connections.lookup k = some conn) :
    conn.Gone := by
  induction cs using List.reverseRecOn generalizing k conn with
  | nil => nomatch h
  | append_singleton cs c ih =>
    rw [List.foldl_append, List.foldl_cons, List.foldl_nil] at h
    have hchange := change_step (cs.foldl step (new timeout waitTimeout)) c k
    rw [h] at hchange
    generalize hafter : some conn = after at hchange
    cases hchange with
    | same _ => exact ih hafter.symm
    | updated _ hconn _ _ =>
      obtain rfl := Option.some.inj hafter
      exact (ih hconn).updated
    | opened _ _ _ _ _ =>
      obtain rfl := Option.some.inj hafter
      exact TCPConnTrack.Gone.updated fun hclosed => nomatch hclosed
    | removed _ _ _ => nomatch hafter

end TCPTracker

end Netbird.Conntrack
