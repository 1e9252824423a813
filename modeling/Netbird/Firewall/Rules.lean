/-
Rules of the userspace filter (`uspfilter/filter.go`, `uspfilter/rule.go`).

Peer rules are kept in two maps by address, one for drop rules and one for accept rules.
`AddPeerFiltering` and `DeletePeerRule` change the maps, `peerACLsBlock` looks a packet up
in them: the drop rules of its source address first, then the accept rules of that address,
of `0.0.0.0` and of `::`.

* `RuleRun.sound` — after every sequence of calls the maps hold the rules that were added and
  not deleted;
* `RuleRun.Sound.peerACLsBlock` — the verdict in terms of these rules, for every order in which
  the maps are ranged over;
* `peerACLsBlock_denies_iff` — when the verdict is "deny overrides, default drop".
-/
import Netbird.Firewall.Packet
import Netbird.Peer.Meta

namespace Netbird

open List Addr

/-- The number that the bytes of an address write. -/
def addrNat (b : List UInt8) : ℕ := b.foldl (fun n x => n * 256 + x.toNat) 0

def Prefix.contains (p : Prefix) (ip : List UInt8) : Bool :=
  let len := 8 * p.addr.length
  (p.addr.length = 4 ∨ p.addr.length = 16) ∧ p.bits ≤ len ∧ ip.length = p.addr.length ∧
    addrNat ip >>> (len - p.bits) = addrNat p.addr >>> (len - p.bits)

namespace Firewall

/-- `firewall.Protocol`, a string with four known values. -/
inductive Protocol where
  | tcp
  | udp
  | icmp
  | all
  | other (name : String)
  deriving DecidableEq

/-- `firewall.Action`. -/
inductive Action where
  | accept
  | drop
  deriving DecidableEq

/-- `firewall.Port`: a list of ports, or a range of which the first two values are the bounds. -/
structure Port where
  isRange : Bool
  values : List UInt16
  bounds : isRange = true → 2 ≤ values.length
  deriving DecidableEq

/-- The value at a position that a range has. -/
def Port.bound (p : Port) (h : p.isRange = true) (i : Fin 2) : UInt16 :=
  p.values.get ⟨i, lt_of_lt_of_le i.2 (p.bounds h)⟩

/-- `portsMatch`; no port stands for every port. -/
def portsMatch (rulePort : Option Port) (packetPort : UInt16) : Bool :=
  match rulePort with
  | none => true
  | some p =>
    if h : p.isRange = true then p.bound h 0 ≤ packetPort ∧ packetPort ≤ p.bound h 1
    else packetPort ∈ p.values

/-- `PeerRule`. The id is a new UUID for each rule; here they are numbered. -/
structure PeerRule where
  id : ℕ
  mgmtId : Bytes
  ip : Bytes
  ipLayer : LayerType
  matchByIP : Bool
  protoLayer : LayerType
  sPort : Option Port
  dPort : Option Port
  drop : Bool
  deriving DecidableEq

abbrev RuleSet := AList fun _ : ℕ => PeerRule

/-- The rules of a `Manager` for packets to this peer. -/
structure PeerRules where
  incomingDenyRules : AList fun _ : Bytes => RuleSet
  incomingRules : AList fun _ : Bytes => RuleSet
  nextID : ℕ

/-- `netip.IPv4Unspecified` and `netip.IPv6Unspecified`. -/
def ipv4Unspecified : Bytes := [0, 0, 0, 0]

def ipv6Unspecified : Bytes := List.replicate 16 0

def protoToLayer (proto : Protocol) (ipLayer : LayerType) : LayerType :=
  match proto with
  | .tcp => .tcp
  | .udp => .udp
  | .icmp => if ipLayer = .ipv6 then .icmpv6 else .icmpv4
  | .all => .all
  | .other _ => .zero

namespace PeerRules

def empty : PeerRules := ⟨∅, ∅, 0⟩

def rulesOf (m : PeerRules) (drop : Bool) : AList fun _ : Bytes => RuleSet :=
  if drop then m.incomingDenyRules else m.incomingRules

def setRulesOf (m : PeerRules) (drop : Bool) (rules : AList fun _ : Bytes => RuleSet) : PeerRules :=
  if drop then { m with incomingDenyRules := rules } else { m with incomingRules := rules }

/-- The rule that `AddPeerFiltering` makes for an address of four or sixteen bytes. -/
def makeRule (uuid : ℕ) (id ip : Bytes) (proto : Protocol) (sPort dPort : Option Port)
    (action : Action) : PeerRule :=
  let ip := Addr.unmap ip
  let ipLayer : LayerType := if ip.length = 4 then .ipv4 else .ipv6
  let text := Addr.addrText ip ""
  { id := uuid
    mgmtId := id
    ip := ip
    ipLayer := ipLayer
    matchByIP := ¬ (text = "0.0.0.0" ∨ text = "::")
    protoLayer := protoToLayer proto ipLayer
    sPort := sPort
    dPort := dPort
    drop := action = .drop }

/-- `AddPeerFiltering`: the new rule, or an error for an address of another length. -/
def addPeerFiltering (m : PeerRules) (id ip : Bytes) (proto : Protocol)
    (sPort dPort : Option Port) (action : Action) : Except String (PeerRule × PeerRules) :=
  if ip.length = 4 ∨ ip.length = 16 then
    let r := makeRule m.nextID id ip proto sPort dPort action
    let targetMap := m.rulesOf r.drop
    let ruleset := (targetMap.lookup r.ip).getD ∅
    .ok (r, { m.setRulesOf r.drop (targetMap.insert r.ip (ruleset.insert r.id r)) with
      nextID := m.nextID + 1 })
  else .error ("invalid IP: " ++ Addr.ipText ip)

def deletePeerRule (m : PeerRules) (r : PeerRule) : Except String PeerRules :=
  let sourceMap := m.rulesOf r.drop
  match sourceMap.lookup r.ip with
  | none => .error ("delete rule: no rule with such id: " ++ toString r.id)
  | some ruleset =>
    if (ruleset.lookup r.id).isNone then
      .error ("delete rule: no rule with such id: " ++ toString r.id)
    else
      let ruleset := ruleset.erase r.id
      .ok (m.setRulesOf r.drop
        (if ruleset.keys = [] then sourceMap.erase r.ip else sourceMap.insert r.ip ruleset))

end PeerRules

/-! ### Route rules -/

/-- `firewall.Set`: the first four bytes of a digest, and a text for people. -/
structure DomainSet where
  hash : Bytes
  comment : String
  deriving DecidableEq

/-- The zero value, which stands for no set. -/
def DomainSet.zero : DomainSet := ⟨[0, 0, 0, 0], ""⟩

structure RouteRule where
  id : String
  mgmtId : Bytes
  sources : List Prefix
  dstSet : DomainSet
  destinations : List Prefix
  protoLayer : LayerType
  srcPort : Option Port
  dstPort : Option Port
  action : Action
  deriving DecidableEq

def ruleMatches (rule : RouteRule) (srcAddr dstAddr : Bytes) (protoLayer : LayerType)
    (srcPort dstPort : UInt16) : Bool :=
  if rule.protoLayer ≠ .all ∧ rule.protoLayer ≠ protoLayer then false
  else if (protoLayer = .tcp ∨ protoLayer = .udp) ∧
      (! portsMatch rule.srcPort srcPort ∨ ! portsMatch rule.dstPort dstPort) then false
  else if ! rule.destinations.any (·.contains dstAddr) then false
  else rule.sources.any (·.contains srcAddr)

/-- `routeACLsPass`: the first rule that matches decides. -/
def routeACLsPass (routeRules : List RouteRule) (srcIP dstIP : Bytes) (protoLayer : LayerType)
    (srcPort dstPort : UInt16) : Bytes × Bool :=
  match routeRules.find? (ruleMatches · srcIP dstIP protoLayer srcPort dstPort) with
  | some rule => (rule.mgmtId, rule.action = .accept)
  | none => ([], false)

/-! ### The verdict on a packet -/

/-- What the loop of `validateRule` tests for one rule. -/
def PeerRule.isMatch (rule : PeerRule) (ip : Bytes) (payloadLayer : LayerType) (d : Decoder) :
    Bool :=
  if rule.matchByIP ∧ ip ≠ rule.ip then false
  else if rule.protoLayer = .all then true
  else if payloadLayer ≠ rule.protoLayer then false
  else
    match payloadLayer with
    | .tcp => portsMatch rule.sPort d.tcp.srcPort && portsMatch rule.dPort d.tcp.dstPort
    | .udp => portsMatch rule.sPort d.udp.srcPort && portsMatch rule.dPort d.udp.dstPort
    | .icmpv4 | .icmpv6 => true
    | _ => false

variable (visit : Keyed.Visit PeerRule)

/-- `validateRule`: the first rule of the set, in the order of the range, that matches. -/
def validateRule (ip : Bytes) (rules : Option RuleSet) (d : Decoder) :
    Except Panic (Bytes × Bool × Bool) := do
  let payloadLayer ← Checked.index d.decoded 1
  let all := visit.order ((rules.getD ∅).entries.map fun e => e.2)
  match all.find? fun rule => rule.isMatch ip payloadLayer d with
  | some rule => pure (rule.mgmtId, rule.drop, true)
  | none => pure ([], false, false)

/-- `isSpecialICMP`: destination unreachable or time exceeded. -/
def isSpecialICMP (d : Decoder) : Except Panic Bool := do
  let layer ← Checked.index d.decoded 1
  pure (layer = .icmpv4 ∧ (d.icmp4.type = 3 ∨ d.icmp4.type = 11))

/-- `peerACLsBlock`: the id of the deciding rule and whether the packet is blocked. -/
def peerACLsBlock (m : PeerRules) (srcIP : Bytes) (d : Decoder) : Except Panic (Bytes × Bool) := do
  if ← isSpecialICMP d then
    return ([], false)
  let (mgmtId, filter, ok) ← validateRule visit srcIP (m.incomingDenyRules.lookup srcIP) d
  if ok then
    return (mgmtId, filter)
  let (mgmtId, filter, ok) ← validateRule visit srcIP (m.incomingRules.lookup srcIP) d
  if ok then
    return (mgmtId, filter)
  let (mgmtId, filter, ok) ← validateRule visit srcIP (m.incomingRules.lookup ipv4Unspecified) d
  if ok then
    return (mgmtId, filter)
  let (mgmtId, filter, ok) ← validateRule visit srcIP (m.incomingRules.lookup ipv6Unspecified) d
  if ok then
    return (mgmtId, filter)
  return ([], true)

/-! ### Calls over time -/

/-- A call on the rules; `delete k` passes the rule that the `k`-th addition returned. -/
inductive RuleCall where
  | add (id ip : Bytes) (proto : Protocol) (sPort dPort : Option Port) (action : Action)
  | delete (k : ℕ)

/-- The rules of the filter, the rules that the additions returned, and those of them that were
not deleted since. -/
structure RuleRun where
  rules : PeerRules
  returned : List PeerRule
  installed : List PeerRule

namespace RuleRun

def init : RuleRun := ⟨.empty, [], []⟩

/-- One call; one that fails changes nothing. -/
def step (s : RuleRun) : RuleCall → RuleRun
  | .add id ip proto sPort dPort action =>
    match s.rules.addPeerFiltering id ip proto sPort dPort action with
    | .error _ => s
    | .ok (r, rules) => ⟨rules, s.returned ++ [r], s.installed ++ [r]⟩
  | .delete k =>
    match s.returned[k]? with
    | none => s
    | some r =>
      match s.rules.deletePeerRule r with
      | .error _ => s
      | .ok rules => { s with rules := rules, installed := s.installed.filter (· ≠ r) }

def after (calls : List RuleCall) : RuleRun := calls.foldl step init

end RuleRun

namespace PeerRules

/-- The rule that is kept for an action, an address and an id. -/
def find (m : PeerRules) (drop : Bool) (ip : Bytes) (id : ℕ) : Option PeerRule :=
  ((m.rulesOf drop).lookup ip).bind (·.lookup id)

variable (m : PeerRules) (drop : Bool)

@[simp] theorem rulesOf_setRulesOf (drop' : Bool) (rules : AList fun _ : Bytes => RuleSet) :
    (m.setRulesOf drop rules).rulesOf drop' = if drop' = drop then rules else m.rulesOf drop' := by
  cases drop <;> cases drop' <;> rfl

@[simp] theorem setRulesOf_nextID
    (rules : AList fun _ : Bytes => RuleSet) : (m.setRulesOf drop rules).nextID = m.nextID := by
  cases drop <;> rfl

theorem find_eq (ip : Bytes) (id : ℕ) :
    m.find drop ip id = (((m.rulesOf drop).lookup ip).getD ∅).lookup id := by
  rw [find]
  cases (m.rulesOf drop).lookup ip <;> rfl

/-- The set of one address is replaced, in which one rule has changed. -/
theorem find_setRulesOf {rules : AList fun _ : Bytes => RuleSet}
    {ip : Bytes} {id : ℕ} (set : RuleSet) {rule : Option PeerRule}
    (hlookup : ∀ ip', (rules.lookup ip').getD ∅ =
      if ip' = ip then set else ((m.rulesOf drop).lookup ip').getD ∅)
    (hset : ∀ id', set.lookup id' = if id' = id then rule else m.find drop ip id')
    (drop' ip' id') : (m.setRulesOf drop rules).find drop' ip' id' =
      if drop' = drop ∧ ip' = ip ∧ id' = id then rule else m.find drop' ip' id' := by
  rw [find_eq, rulesOf_setRulesOf]
  by_cases hdrop : drop' = drop
  · subst hdrop
    rw [if_pos rfl, hlookup]
    by_cases hip : ip' = ip
    · simp [hip, hset]
    · simp [hip, find_eq]
  · simp [hdrop, find_eq]

/-- **What an addition does**: the rule it returns is new, and is kept beside the others. -/
theorem addPeerFiltering_ok {m m' : PeerRules} {id ip : Bytes} {proto : Protocol}
    {sPort dPort : Option Port} {action : Action} {r : PeerRule}
    (h : m.addPeerFiltering id ip proto sPort dPort action = .ok (r, m')) :
    r = makeRule m.nextID id ip proto sPort dPort action ∧ m'.nextID = m.nextID + 1 ∧
      ∀ drop' ip' id', m'.find drop' ip' id' =
        if drop' = r.drop ∧ ip' = r.ip ∧ id' = r.id then some r else m.find drop' ip' id' := by
  unfold addPeerFiltering at h
  split_ifs at h
  obtain ⟨rfl, rfl⟩ := Prod.mk.inj (Except.ok.inj h)
  refine ⟨rfl, rfl, fun drop' ip' id' => ?_⟩
  generalize makeRule m.nextID id ip proto sPort dPort action = r
  refine find_setRulesOf m r.drop ((((m.rulesOf r.drop).lookup r.ip).getD ∅).insert r.id r)
    (fun ip' => ?_) (fun id' => ?_) drop' ip' id'
  · rw [Keyed.lookup_insert_ite, apply_ite (Option.getD · ∅)]
    rfl
  · rw [Keyed.lookup_insert_ite, find_eq]

/-- **What a deletion does**: it fails if there is no such rule, and removes it otherwise. -/
theorem deletePeerRule_spec (r : PeerRule) :
    (m.find r.drop r.ip r.id = none ∧ ∃ e, m.deletePeerRule r = .error e) ∨
      ∃ m', m.deletePeerRule r = .ok m' ∧ m'.nextID = m.nextID ∧
        ∀ drop' ip' id', m'.find drop' ip' id' =
          if drop' = r.drop ∧ ip' = r.ip ∧ id' = r.id then none else m.find drop' ip' id' := by
  unfold deletePeerRule
  dsimp only
  rcases hset : (m.rulesOf r.drop).lookup r.ip with _ | set
  · exact .inl ⟨by rw [find, hset]; rfl, _, rfl⟩
  · dsimp only
    rcases hr : set.lookup r.id with _ | r'
    · exact .inl ⟨by rw [find, hset]; exact hr, _, rfl⟩
    · refine .inr ⟨_, rfl, setRulesOf_nextID .., find_setRulesOf m r.drop (set.erase r.id)
        (fun ip' => ?_) fun id' => ?_⟩
      · by_cases hempty : (set.erase r.id).keys = []
        · -- the set of the address is dropped with its last rule
          have herase : set.erase r.id = ∅ := by
            refine AList.ext ?_
            simpa [AList.keys, keys] using hempty
          rw [if_pos hempty, Keyed.lookup_erase_ite, apply_ite (Option.getD · ∅), herase]
          rfl
        · rw [if_neg hempty, Keyed.lookup_insert_ite, apply_ite (Option.getD · ∅)]
          rfl
      · rw [Keyed.lookup_erase_ite, find_eq, hset]
        rfl

end PeerRules

variable {r : PeerRule}

/-- A rule names no layer below the transport layer. -/
theorem protoToLayer_known (proto : Protocol) (ipLayer : LayerType)
    (h : (protoToLayer proto ipLayer).known = true) :
    (protoToLayer proto ipLayer).isTransport = true := by
  cases proto with
  | icmp =>
    unfold protoToLayer
    by_cases hip : ipLayer = .ipv6 <;> simp [hip, LayerType.isTransport]
  | tcp | udp => rfl
  | all | other => nomatch h

namespace RuleRun

/-- What holds of the filter and the rules that were returned after every sequence of calls. -/
structure Sound (s : RuleRun) : Prop where
  /-- the filter keeps the rules that were not deleted, each in its place -/
  find : ∀ drop ip id r, s.rules.find drop ip id = some r ↔
    r ∈ s.installed ∧ r.drop = drop ∧ r.ip = ip ∧ r.id = id
  returned : ∀ r ∈ s.installed, r ∈ s.returned
  lt_nextID : ∀ r ∈ s.returned, r.id < s.rules.nextID
  distinct : ∀ r ∈ s.returned, ∀ r' ∈ s.returned, r.id = r'.id → r = r'
  matchByIP : ∀ r ∈ s.returned, r.ip = ipv4Unspecified ∨ r.ip = ipv6Unspecified →
    r.matchByIP = false
  protoLayer : ∀ r ∈ s.returned, r.protoLayer.known = true → r.protoLayer.isTransport = true

theorem sound_init : init.Sound where
  find drop ip id r := by cases drop <;> simp [init, PeerRules.find, PeerRules.rulesOf, PeerRules.empty]
  returned r hr := nomatch hr
  lt_nextID r hr := nomatch hr
  distinct r hr := nomatch hr
  matchByIP r hr := nomatch hr
  protoLayer r hr := nomatch hr

variable {s : RuleRun}

theorem Sound.add (hs : s.Sound) {id ip : Bytes} {proto : Protocol}
    {sPort dPort : Option Port} {action : Action} {m' : PeerRules}
    (h : s.rules.addPeerFiltering id ip proto sPort dPort action = .ok (r, m')) :
    Sound ⟨m', s.returned ++ [r], s.installed ++ [r]⟩ := by
  obtain ⟨hr, hnext, hfind⟩ := PeerRules.addPeerFiltering_ok h
  have hid : r.id = s.rules.nextID := by rw [hr]; rfl
  have hnew : ∀ r' ∈ s.returned, r'.id ≠ r.id := by
    intro r' hr'
    have := hs.lt_nextID r' hr'
    omega
  refine ⟨fun drop' ip' id' r' => ?_, ?_, ?_, ?_, ?_, ?_⟩
  · rw [hfind, mem_append, mem_singleton]
    by_cases hkey : drop' = r.drop ∧ ip' = r.ip ∧ id' = r.id
    · obtain ⟨rfl, rfl, rfl⟩ := hkey
      rw [if_pos ⟨rfl, rfl, rfl⟩]
      refine ⟨fun heq => ?_, fun ⟨hmem, _, _, heq⟩ => ?_⟩
      · obtain rfl := Option.some.inj heq
        exact ⟨.inr rfl, rfl, rfl, rfl⟩
      · rcases hmem with hmem | rfl
        · exact absurd heq (hnew r' (hs.returned r' hmem))
        · rfl
    · rw [if_neg hkey, hs.find]
      refine ⟨fun ⟨hmem, hrest⟩ => ⟨.inl hmem, hrest⟩, fun ⟨hmem, hrest⟩ => ⟨?_, hrest⟩⟩
      rcases hmem with hmem | rfl
      · exact hmem
      · exact absurd ⟨hrest.1.symm, hrest.2.1.symm, hrest.2.2.symm⟩ hkey
  · exact fun r' hr' => mem_append.mpr ((mem_append.mp hr').imp_left (hs.returned r'))
  · rw [hnext, forall_mem_append, forall_mem_singleton, hid]
    exact ⟨fun r' hr' => (hs.lt_nextID r' hr').trans (Nat.lt_succ_self _), Nat.lt_succ_self _⟩
  · intro r₁ h₁ r₂ h₂ heq
    simp only [mem_append, mem_singleton] at h₁ h₂
    rcases h₁ with h₁ | rfl <;> rcases h₂ with h₂ | rfl
    · exact hs.distinct r₁ h₁ r₂ h₂ heq
    · exact absurd heq (hnew r₁ h₁)
    · exact absurd heq.symm (hnew r₂ h₂)
    · rfl
  · refine forall_mem_append.mpr ⟨hs.matchByIP, forall_mem_singleton.mpr fun hip => ?_⟩
    have hunmap : r.ip = unmap ip := by rw [hr]; rfl
    have hmatch : r.matchByIP = ! decide (addrText (unmap ip) "" = "0.0.0.0" ∨
        addrText (unmap ip) "" = "::") := by
      rw [hr, PeerRules.makeRule]
      simp
    rw [hmatch, ← hunmap]
    rcases hip with hip | hip <;> rw [hip] <;> rfl
  · refine forall_mem_append.mpr ⟨hs.protoLayer, forall_mem_singleton.mpr ?_⟩
    rw [hr]
    exact protoToLayer_known proto _

theorem Sound.delete (hs : s.Sound) (hr : r ∈ s.returned)
    {m' : PeerRules} (hnext : m'.nextID = s.rules.nextID)
    (hfind : ∀ drop' ip' id', m'.find drop' ip' id' =
      if drop' = r.drop ∧ ip' = r.ip ∧ id' = r.id then none else s.rules.find drop' ip' id') :
    Sound { s with rules := m', installed := s.installed.filter (· ≠ r) } := by
  refine ⟨fun drop' ip' id' r' => ?_, fun r' hr' => hs.returned r' (mem_of_mem_filter hr'),
    fun r' hr' => ?_, hs.distinct, hs.matchByIP, hs.protoLayer⟩
  · rw [hfind, mem_filter]
    split_ifs with hkey
    · refine ⟨fun h => (nomatch h), fun ⟨⟨hmem, hne⟩, _, _, hid⟩ => ?_⟩
      have heq := hs.distinct r' (hs.returned r' hmem) r hr (hid.trans hkey.2.2)
      simp [heq] at hne
    · rw [hs.find]
      refine ⟨fun ⟨hmem, hrest⟩ => ⟨⟨hmem, ?_⟩, hrest⟩, fun ⟨⟨hmem, _⟩, hrest⟩ => ⟨hmem, hrest⟩⟩
      refine decide_eq_true fun heq => hkey ?_
      subst heq
      exact ⟨hrest.1.symm, hrest.2.1.symm, hrest.2.2.symm⟩
  · rw [hnext]
    exact hs.lt_nextID r' hr'

theorem Sound.step (hs : s.Sound) (call : RuleCall) : (s.step call).Sound := by
  cases call with
  | add id ip proto sPort dPort action =>
    simp only [RuleRun.step]
    rcases h : s.rules.addPeerFiltering id ip proto sPort dPort action with e | res
    · exact hs
    · exact hs.add h
  | delete k =>
    simp only [RuleRun.step]
    rcases hk : s.returned[k]? with _ | r
    · exact hs
    · obtain ⟨_, e, he⟩ | ⟨m', hm', hnext, hfind⟩ := s.rules.deletePeerRule_spec r
      · simpa only [he] using hs
      · simpa only [hm'] using hs.delete (mem_of_getElem? hk) hnext hfind

/-- **The maps hold the rules that were added and not deleted**, after every sequence of calls. -/
theorem sound (calls : List RuleCall) : (after calls).Sound :=
  foldlRecOn calls RuleRun.step sound_init fun _ hs call _ => hs.step call

theorem Sound.mem_ruleset (hs : s.Sound) (drop : Bool) (ip : Bytes) (r : PeerRule) :
    r ∈ (((s.rules.rulesOf drop).lookup ip).getD ∅).entries.map (fun e => e.2) ↔
      r ∈ s.installed ∧ r.drop = drop ∧ r.ip = ip := by
  have hlookup := s.rules.find_eq drop ip
  rw [mem_map]
  constructor
  · rintro ⟨⟨id, r⟩, hmem, rfl⟩
    have hfound := (hlookup id).trans (AList.mem_lookup_iff.mpr hmem)
    have ⟨hin, hdrop, hip, _⟩ := (hs.find drop ip id r).mp hfound
    exact ⟨hin, hdrop, hip⟩
  · rintro ⟨hin, hdrop, hip⟩
    have hfound := (hs.find drop ip r.id r).mpr ⟨hin, hdrop, hip, rfl⟩
    exact ⟨⟨r.id, r⟩, AList.mem_lookup_iff.mp ((hlookup r.id).symm.trans hfound), rfl⟩

end RuleRun

/-! ### The verdict in terms of the installed rules -/

/-- The ports of a TCP or UDP packet are among those of the rule; other packets have none. -/
def PeerRule.portsContain (r : PeerRule) (layer : LayerType) (d : Decoder) : Prop :=
  (layer = .tcp → portsMatch r.sPort d.tcp.srcPort ∧ portsMatch r.dPort d.tcp.dstPort) ∧
    (layer = .udp → portsMatch r.sPort d.udp.srcPort ∧ portsMatch r.dPort d.udp.dstPort)

instance (r : PeerRule) (layer : LayerType) (d : Decoder) : Decidable (r.portsContain layer d) :=
  inferInstanceAs (Decidable (_ ∧ _))

/-- A rule matches a packet: its address is the source of the packet or `0.0.0.0`, its protocol
is ALL or that of the packet, and its ports contain those of the packet. -/
def PeerRule.Covers (r : PeerRule) (srcIP : Bytes) (layer : LayerType) (d : Decoder) : Prop :=
  (r.ip = srcIP ∨ r.ip = ipv4Unspecified) ∧ (r.protoLayer = .all ∨ r.protoLayer = layer) ∧
    r.portsContain layer d

instance (r : PeerRule) (srcIP : Bytes) (layer : LayerType) (d : Decoder) :
    Decidable (r.Covers srcIP layer d) :=
  inferInstanceAs (Decidable (_ ∧ _ ∧ _))

/-- Deny overrides, default drop. -/
def Denies (rules : List PeerRule) (srcIP : Bytes) (layer : LayerType) (d : Decoder) : Prop :=
  (∃ r ∈ rules, r.drop = true ∧ r.Covers srcIP layer d) ∨
    ¬ ∃ r ∈ rules, r.drop = false ∧ r.Covers srcIP layer d

instance (rules : List PeerRule) (srcIP : Bytes) (layer : LayerType) (d : Decoder) :
    Decidable (Denies rules srcIP layer d) :=
  inferInstanceAs (Decidable (_ ∨ _))

/-- What the filter compares of a rule under the right address: the ports only if the protocol
is not ALL. -/
def PeerRule.Applies (r : PeerRule) (layer : LayerType) (d : Decoder) : Prop :=
  r.protoLayer = .all ∨ r.protoLayer = layer ∧ r.portsContain layer d

/-- What `validateRule` tests for a rule that is looked up under the right address. -/
theorem PeerRule.isMatch_iff {ip : Bytes} {layer : LayerType} {d : Decoder}
    (hip : r.matchByIP = true → ip = r.ip) (hlayer : layer.known = true)
    (hproto : r.protoLayer.known = true → r.protoLayer.isTransport = true) :
    r.isMatch ip layer d = true ↔ r.Applies layer d := by
  unfold PeerRule.isMatch PeerRule.Applies
  rw [if_neg fun h => h.2 (hip h.1)]
  by_cases hall : r.protoLayer = .all
  · simp [hall]
  by_cases heq : layer = r.protoLayer
  · subst heq
    have htransport := hproto hlayer
    simp only [ne_eq, not_true_eq_false, if_false, hall, false_or, true_and,
      PeerRule.portsContain]
    cases hl : r.protoLayer with
    | tcp | udp | icmpv4 | icmpv6 => simp
    | _ => simp [hl, LayerType.isTransport] at htransport
  · simp [heq, hall, Ne.symm heq]

/-- A loop over rules of one action finds one that matches, in every order. -/
theorem validateRule_eq (ip : Bytes) {rules : Option RuleSet} {d : Decoder} {layer : LayerType}
    (hlayer : d.decoded[1]? = some layer) {drop : Bool}
    (hdrop : ∀ r ∈ (rules.getD ∅).entries.map (fun e => e.2), r.drop = drop) :
    (∃ id, validateRule visit ip rules d = .ok (id, drop, true) ∧
      ∃ r ∈ (rules.getD ∅).entries.map (fun e => e.2), r.isMatch ip layer d = true) ∨
    validateRule visit ip rules d = .ok ([], false, false) ∧
      ∀ r ∈ (rules.getD ∅).entries.map (fun e => e.2), r.isMatch ip layer d = false := by
  unfold validateRule
  rw [Checked.index_of_getElem? hlayer]
  have hperm := visit.perm ((rules.getD ∅).entries.map fun e => e.2)
  cases hfind : (visit.order ((rules.getD ∅).entries.map fun e => e.2)).find?
      fun rule => rule.isMatch ip layer d with
  | some r =>
    have hmem := hperm.mem_iff.mp (mem_of_find?_eq_some hfind)
    have hmatch : r.isMatch ip layer d = true := by
      simpa only using find?_some hfind
    refine .inl ⟨r.mgmtId, ?_, r, hmem, hmatch⟩
    simp only [bind, Except.bind, hfind, ← hdrop r hmem]
    rfl
  | none =>
    refine .inr ⟨?_, fun r hr => ?_⟩
    · simp only [bind, Except.bind, hfind]
      rfl
    · simpa using find?_eq_none.mp hfind r (hperm.mem_iff.mpr hr)

variable {s : RuleRun} (srcIP : Bytes) {d : Decoder} {layer : LayerType}

theorem RuleRun.Sound.validateRule (hs : s.Sound) (hlayer : d.decoded[1]? = some layer)
    (hknown : layer.known = true) (drop : Bool) {key : Bytes}
    (hkey : key = srcIP ∨ key = ipv4Unspecified ∨ key = ipv6Unspecified) :
    (∃ id, validateRule visit srcIP ((s.rules.rulesOf drop).lookup key) d = .ok (id, drop, true) ∧
      ∃ r ∈ s.installed, r.drop = drop ∧ r.ip = key ∧ r.Applies layer d) ∨
    validateRule visit srcIP ((s.rules.rulesOf drop).lookup key) d = .ok ([], false, false) ∧
      ¬ ∃ r ∈ s.installed, r.drop = drop ∧ r.ip = key ∧ r.Applies layer d := by
  have hmatch : ∀ r ∈ s.installed, r.ip = key →
      (r.isMatch srcIP layer d = true ↔ r.Applies layer d) := by
    intro r hr hip
    refine PeerRule.isMatch_iff (fun hby => ?_) hknown (hs.protoLayer r (hs.returned r hr))
    rcases hkey with rfl | hkey
    · exact hip.symm
    · rw [hs.matchByIP r (hs.returned r hr) (hip ▸ hkey)] at hby
      nomatch hby
  obtain ⟨id, hok, r, hr, hm⟩ | ⟨hok, hnone⟩ := validateRule_eq visit srcIP hlayer
    fun r hr => ((hs.mem_ruleset drop key r).mp hr).2.1
  · obtain ⟨hin, hdrop, hip⟩ := (hs.mem_ruleset drop key r).mp hr
    exact .inl ⟨id, hok, r, hin, hdrop, hip, (hmatch r hin hip).mp hm⟩
  · refine .inr ⟨hok, fun ⟨r, hin, hdrop, hip, happ⟩ => ?_⟩
    have hm := hnone r ((hs.mem_ruleset drop key r).mpr ⟨hin, hdrop, hip⟩)
    rw [(hmatch r hin hip).mpr happ] at hm
    nomatch hm

/-- **The verdict on a packet**: it is blocked if a drop rule of its source address applies, or no
accept rule of that address, `0.0.0.0` or `::` does. -/
theorem RuleRun.Sound.peerACLsBlock (hs : s.Sound) (hlayer : d.decoded[1]? = some layer)
    (hknown : layer.known = true) (hspecial : isSpecialICMP d = .ok false) :
    ∃ id blocked, peerACLsBlock visit s.rules srcIP d = .ok (id, blocked) ∧ (blocked = true ↔
        (∃ r ∈ s.installed, r.drop = true ∧ r.ip = srcIP ∧ r.Applies layer d) ∨
        ¬ ∃ r ∈ s.installed, r.drop = false ∧
          (r.ip = srcIP ∨ r.ip = ipv4Unspecified ∨ r.ip = ipv6Unspecified) ∧
          r.Applies layer d) := by
  have hdeny := hs.validateRule visit srcIP hlayer hknown true (.inl rfl)
  have hallow : ∀ key, key = srcIP ∨ key = ipv4Unspecified ∨ key = ipv6Unspecified → _ :=
    fun key => hs.validateRule visit srcIP hlayer hknown false
  simp only [PeerRules.rulesOf, if_true, Bool.false_eq_true, if_false] at hdeny hallow
  unfold Firewall.peerACLsBlock
  simp only [hspecial, bind, Except.bind, Bool.false_eq_true, if_false]
  -- the lookups are tried one after another, and the first that finds a rule decides
  obtain ⟨id, hok, hfound⟩ | ⟨hok, hnodeny⟩ := hdeny <;> simp only [hok, if_true]
  · exact ⟨id, true, rfl, iff_of_true rfl (.inl hfound)⟩
  simp only [hnodeny, false_or, or_and_right, and_or_left, exists_or]
  obtain ⟨id, hok, hfound⟩ | ⟨hok, hnosrc⟩ := hallow srcIP (.inl rfl) <;>
    simp only [hok, if_true, Bool.false_eq_true, if_false]
  · exact ⟨id, false, rfl, by simp [hfound]⟩
  obtain ⟨id, hok, hfound⟩ | ⟨hok, hnov4⟩ := hallow ipv4Unspecified (.inr (.inl rfl)) <;>
    simp only [hok, if_true, Bool.false_eq_true, if_false]
  · exact ⟨id, false, rfl, by simp [hfound]⟩
  obtain ⟨id, hok, hfound⟩ | ⟨hok, hnov6⟩ := hallow ipv6Unspecified (.inr (.inr rfl)) <;>
    simp only [hok, if_true, Bool.false_eq_true, if_false]
  · exact ⟨id, false, rfl, by simp [hfound]⟩
  exact ⟨[], true, rfl, by simp only [hnosrc, hnov4, hnov6, or_self, not_false_eq_true]⟩

/-! ### Deny overrides, default drop -/

section Verdict

variable (rules : List PeerRule) (srcIP : Bytes) (layer : LayerType) (d : Decoder)

/-- A drop rule of the packet's own source address matches it. -/
def OwnDrop : Prop :=
  ∃ r ∈ rules, r.drop = true ∧ r.ip = srcIP ∧ r.Covers srcIP layer d

/-- A drop rule for every source matches the packet; the filter does not look for it. -/
def WildcardDrop : Prop :=
  ∃ r ∈ rules, r.drop = true ∧ r.ip = ipv4Unspecified ∧ r.Covers srcIP layer d

/-- A drop rule of the source address for protocol ALL does not have the ports of the packet;
the filter does not compare them. -/
def OverreachingDrop : Prop :=
  ∃ r ∈ rules, r.drop = true ∧ r.ip = srcIP ∧ r.protoLayer = .all ∧ ¬ r.portsContain layer d

def AcceptCovers : Prop :=
  ∃ r ∈ rules, r.drop = false ∧ r.Covers srcIP layer d

/-- An accept rule that does not match the packet is taken for one that does: it is for protocol
ALL and does not have the ports of the packet, or its address is `::`. -/
def OverreachingAccept : Prop :=
  ∃ r ∈ rules, r.drop = false ∧
    ((r.ip = srcIP ∨ r.ip = ipv4Unspecified) ∧ r.protoLayer = .all ∧ ¬ r.portsContain layer d ∨
      r.ip = ipv6Unspecified ∧ r.Applies layer d)

/-- When the filter decides as the rules say: a drop rule of the source address matches the packet;
or an accept rule does, and a drop rule for every source does exactly if one of the source address
is wrongly applied; or none does, and no accept rule is wrongly applied unless a drop rule is. -/
def DecidedByRules : Prop :=
  OwnDrop rules srcIP layer d ∨
    AcceptCovers rules srcIP layer d ∧
      (OverreachingDrop rules srcIP layer d ↔ WildcardDrop rules srcIP layer d) ∨
    ¬ AcceptCovers rules srcIP layer d ∧
      (OverreachingDrop rules srcIP layer d ∨ ¬ OverreachingAccept rules srcIP layer d)

variable {rules srcIP layer d}

theorem PeerRule.applies_iff (r : PeerRule) :
    r.Applies layer d ↔ (r.protoLayer = .all ∨ r.protoLayer = layer) ∧ r.portsContain layer d ∨
      r.protoLayer = .all ∧ ¬ r.portsContain layer d := by
  unfold PeerRule.Applies
  grind

theorem sees_drop_iff : (∃ r ∈ rules, r.drop = true ∧ r.ip = srcIP ∧ r.Applies layer d) ↔
      OwnDrop rules srcIP layer d ∨ OverreachingDrop rules srcIP layer d := by
  simp only [PeerRule.applies_iff, OwnDrop, OverreachingDrop, PeerRule.Covers, ← exists_or]
  grind

theorem sees_accept_iff :
    (∃ r ∈ rules, r.drop = false ∧ (r.ip = srcIP ∨ r.ip = ipv4Unspecified ∨ r.ip = ipv6Unspecified) ∧
      r.Applies layer d) ↔
      AcceptCovers rules srcIP layer d ∨ OverreachingAccept rules srcIP layer d := by
  simp only [AcceptCovers, OverreachingAccept, PeerRule.applies_iff, PeerRule.Covers, ← exists_or]
  grind

theorem denies_iff :
    Denies rules srcIP layer d ↔ OwnDrop rules srcIP layer d ∨ WildcardDrop rules srcIP layer d ∨
      ¬ AcceptCovers rules srcIP layer d := by
  rw [← or_assoc]
  refine or_congr ?_ Iff.rfl
  simp only [OwnDrop, WildcardDrop, PeerRule.Covers, ← exists_or]
  grind

end Verdict

/-- **When the peer ACL means "deny overrides, default drop"**, for every sequence of calls and
every packet with two headers that is no ICMP error. -/
theorem peerACLsBlock_denies_iff (gp : Gopacket) (calls : List RuleCall) (d₀ d : Decoder)
    (packetData srcIP : Bytes) (hvalid : isValidPacket gp d₀ packetData = (d, true, false))
    (hspecial : isSpecialICMP d = .ok false) : ∃ layer blocked, d.decoded[1]? = some layer ∧
      (∀ visit, ∃ id, peerACLsBlock visit (RuleRun.after calls).rules srcIP d = .ok (id, blocked)) ∧
      ((blocked = true ↔ Denies (RuleRun.after calls).installed srcIP layer d) ↔
        DecidedByRules (RuleRun.after calls).installed srcIP layer d) := by
  obtain ⟨layer, hlayer, hknown⟩ := isValidPacket_whole hvalid
  have hverdict := fun visit =>
    (RuleRun.sound calls).peerACLsBlock visit srcIP hlayer hknown hspecial
  obtain ⟨id, blocked, _, hblocked⟩ := hverdict .inOrder
  refine ⟨layer, blocked, hlayer, fun visit => ?_, ?_⟩
  · obtain ⟨id', blocked', hok, hblocked'⟩ := hverdict visit
    obtain rfl : blocked' = blocked := Bool.eq_iff_iff.mpr (hblocked'.trans hblocked.symm)
    exact ⟨id', hok⟩
  · rw [hblocked, sees_drop_iff, sees_accept_iff, denies_iff, DecidedByRules]
    grind

/-- A TCP packet with the SYN flag from port 4660 of 10.0.0.1 to port 80 of 10.0.0.2. -/
def synPacket : Bytes :=
  [0x45, 0, 0, 40, 0, 0, 0, 0, 64, 6, 0, 0, 10, 0, 0, 1, 10, 0, 0, 2] ++
    [0x12, 0x34, 0, 80, 0, 0, 0, 0, 0, 0, 0, 0, 0x50, 2, 0, 0, 0, 0, 0, 0]

/-- The packet as a new decoder has it. -/
def synDecoded : Decoder := (decodeLayers .plain default synPacket).1

/-- TCP is dropped from everywhere, and everything is accepted from 10.0.0.1. -/
def wildcardDropCalls : List RuleCall :=
  [.add [1] [0, 0, 0, 0] .tcp none none .drop, .add [2] [10, 0, 0, 1] .all none none .accept]

/-- The filter accepts a packet that the drop rule for every source matches. -/
theorem wildcard_drop_ignored : isValidPacket .plain default synPacket = (synDecoded, true, false) ∧
      peerACLsBlock .inOrder (RuleRun.after wildcardDropCalls).rules [10, 0, 0, 1] synDecoded =
        .ok ([2], false) ∧
      Denies (RuleRun.after wildcardDropCalls).installed [10, 0, 0, 1] .tcp synDecoded :=
  ⟨by decide, rfl, by decide⟩

/-- Everything is accepted from 10.0.0.1. -/
def acceptCalls : List RuleCall := [.add [2] [10, 0, 0, 1] .all none none .accept]

theorem accept_decided_by_rules : ∃ layer blocked, synDecoded.decoded[1]? = some layer ∧
      (∀ visit, ∃ id, peerACLsBlock visit (RuleRun.after acceptCalls).rules [10, 0, 0, 1]
        synDecoded = .ok (id, blocked)) ∧
      ((blocked = true ↔ Denies (RuleRun.after acceptCalls).installed [10, 0, 0, 1] layer
          synDecoded) ↔
        DecidedByRules (RuleRun.after acceptCalls).installed [10, 0, 0, 1] layer synDecoded) :=
  peerACLsBlock_denies_iff .plain acceptCalls default synDecoded synPacket [10, 0, 0, 1]
    (by decide) rfl

end Firewall

end Netbird
