/-
The access-control part of a network map: which peers a target may talk to, under
which firewall rules, and who may log in to it over SSH.

`Account.GetPeerConnectionResources` and its counterpart on the components run the
same loop over policies and rules.  They differ in how the peers on the two sides of
a rule are found, so that is the parameter of the loop here (`connectionResources`).

* `applyRule_congr` — what a rule does depends on a side's peers only if the target is
  on the other side.
-/
import Netbird.Types.Account

namespace Netbird

open List

/-! ### Firewall rules -/

inductive Direction where
  | inbound
  | outbound
  deriving DecidableEq

/-- `strconv.Itoa` of `FirewallRuleDirectionIN` and `FirewallRuleDirectionOUT`. -/
def Direction.text : Direction → String
  | .inbound => "0"
  | .outbound => "1"

def PolicyTrafficAction.text : PolicyTrafficAction → String
  | .accept => "accept"
  | .drop => "drop"

def PolicyRuleProtocol.text : PolicyRuleProtocol → String
  | .all => "all"
  | .tcp => "tcp"
  | .udp => "udp"
  | .icmp => "icmp"
  | .netbirdSSH => "netbird-ssh"

structure FirewallRule where
  policyID : String
  peerIP : String
  direction : Direction
  action : PolicyTrafficAction
  protocol : PolicyRuleProtocol
  port : String := ""
  portRange : RulePortRange := {}
  deriving DecidableEq

structure SupportedFeatures where
  nativeSSH : Bool
  portRanges : Bool

def defaultSSHPortString : String := "22"
def defaultSSHPortNumber : UInt16 := 22
def nativeSSHPortString : String := "22022"
def nativeSSHPortNumber : UInt16 := 22022
def firewallRuleMinPortRangesVer : String := "0.48.0"
def firewallRuleMinNativeSSHVer : String := "0.60.0"

/-- Does the text occur in the list of characters? -/
def containsText (sub : List Char) : List Char → Bool
  | [] => sub.isEmpty
  | c :: cs => sub.isPrefixOf (c :: cs) || containsText sub cs

def peerSupportedFirewallFeatures (env : MapEnv) (peerVer : String) : SupportedFeatures :=
  if containsText "dev".toList peerVer.toList then ⟨true, true⟩
  else
    let nativeSSH := env.meetsMinVersion firewallRuleMinNativeSSHVer peerVer == some true
    ⟨nativeSSH, nativeSSH || env.meetsMinVersion firewallRuleMinPortRangesVer peerVer == some true⟩

def isPortInRule (portString : String) (portInt : UInt16) (rule : FirewallRule) : Bool :=
  rule.port == portString || (rule.portRange.start ≤ portInt && portInt ≤ rule.portRange.finish)

/-- Port 22022 is added for rules that open port 22 and not already 22022. -/
def addNativeSSHRule (base : FirewallRule) (expanded : List FirewallRule) : List FirewallRule :=
  if expanded.any (isPortInRule nativeSSHPortString nativeSSHPortNumber) then expanded
  else if expanded.any (isPortInRule defaultSSHPortString defaultSSHPortNumber) then
    expanded ++ [{ base with port := nativeSSHPortString }]
  else expanded

def shouldCheckRulesForNativeSSH (supportsNative : Bool) (rule : PolicyRule) (peer : Peer) : Bool :=
  supportsNative && peer.sshEnabled && peer.systemMeta.flags.serverSSHAllowed &&
    rule.protocol == .tcp

/-- The rule for one port range; a peer without port ranges only gets single ports. -/
def expandPortRange (features : SupportedFeatures) (base : FirewallRule) (range : RulePortRange) :
    Option FirewallRule :=
  if features.portRanges then some { base with portRange := range }
  else if range.start != range.finish then none
  else some { base with port := toString range.start.toNat }

def expandPortsAndRanges (env : MapEnv) (base : FirewallRule) (rule : PolicyRule) (peer : Peer) :
    List FirewallRule :=
  let features := peerSupportedFirewallFeatures env peer.systemMeta.wtVersion
  let expanded :=
    if rule.ports.length > 0 then rule.ports.map fun port => { base with port := port }
    else rule.portRanges.filterMap (expandPortRange features base)
  if shouldCheckRulesForNativeSSH features.nativeSSH rule peer || rule.protocol == .netbirdSSH then
    addNativeSSHRule base expanded
  else expanded

def portsIncludesSSH (ports : List String) : Bool :=
  ports.any fun port => port == defaultSSHPortString || port == nativeSSHPortString

def portRangeIncludesSSH (portRanges : List RulePortRange) : Bool :=
  portRanges.any fun range =>
    (range.start ≤ defaultSSHPortNumber && range.finish ≥ defaultSSHPortNumber) ||
      (range.start ≤ nativeSSHPortNumber && range.finish ≥ nativeSSHPortNumber)

def policyRuleImpliesLegacySSH (rule : PolicyRule) : Bool :=
  rule.protocol == .all ||
    (rule.protocol == .tcp && (portsIncludesSSH rule.ports || portRangeIncludesSSH rule.portRanges))

/-! ### The generator -/

/-- What the loop over the rules accumulates. -/
structure ConnResources where
  rulesExists : List String := []
  peersExists : List String := []
  rules : List FirewallRule := []
  peers : List Peer := []
  authorizedUsers : StringMap (List String) := ∅
  sshEnabled : Bool := false
  deriving DecidableEq

namespace ConnResources

/-- List the peer, once. -/
def addPeer (st : ConnResources) (peer : Peer) : ConnResources :=
  if peer.id ∈ st.peersExists then st
  else { st with peers := st.peers ++ [peer], peersExists := peer.id :: st.peersExists }

def baseRule (rule : PolicyRule) (direction : Direction) (peer : Peer) : FirewallRule where
  policyID := rule.id
  peerIP := peer.ipText
  direction := direction
  action := rule.action
  protocol := if rule.protocol = .netbirdSSH then .tcp else rule.protocol

def ruleID (rule : PolicyRule) (fr : FirewallRule) : String :=
  rule.id ++ fr.peerIP ++ fr.direction.text ++ fr.protocol.text ++ fr.action.text ++
    ",".intercalate rule.ports

/-- The rules for one peer, unless the same were added before. -/
def addRules (env : MapEnv) (target : Peer) (rule : PolicyRule) (direction : Direction)
    (st : ConnResources) (peer : Peer) : ConnResources :=
  let fr := baseRule rule direction peer
  if ruleID rule fr ∈ st.rulesExists then st
  else
    { st with
      rulesExists := ruleID rule fr :: st.rulesExists
      rules := st.rules ++
        if rule.ports.length = 0 ∧ rule.portRanges.length = 0 then [fr]
        else expandPortsAndRanges env fr rule target }

/-- The generator of `connResourcesGenerator`. -/
def generate (env : MapEnv) (target : Peer) (rule : PolicyRule) (direction : Direction)
    (st : ConnResources) (groupPeers : List Peer) : ConnResources :=
  groupPeers.foldl (fun st peer => addRules env target rule direction (st.addPeer peer) peer) st

end ConnResources

/-! ### SSH users -/

/-- Where the users of SSH rules come from: the users of each group, and all users that
are allowed in general. -/
structure SSHUsers where
  groupIDToUserIDs : StringMap (List String)
  allowedUserIDs : List String

def sshWildcard : String := "*"

def authorize (userIDs : List String) (m : StringMap (List String)) (localUser : String) :
    StringMap (List String) :=
  m.insert localUser (userIDs.foldl (fun s u => s.insert u) ((m.lookup localUser).getD []))

/-- The local users of one authorized group. -/
def authorizeGroup (users : SSHUsers) (m : StringMap (List String)) (groupID : String)
    (localUsers : List String) : StringMap (List String) :=
  match users.groupIDToUserIDs.lookup groupID with
  | none => m
  | some userIDs =>
    (if localUsers.length = 0 then [sshWildcard] else localUsers).foldl (authorize userIDs) m

def authorizeNative (users : SSHUsers) (rule : PolicyRule) (m : StringMap (List String)) :
    StringMap (List String) :=
  if rule.authorizedGroups.entries.length > 0 then
    rule.authorizedGroups.entries.foldl (fun m e => authorizeGroup users m e.1 e.2) m
  else if rule.authorizedUser ≠ "" then authorize [rule.authorizedUser] m sshWildcard
  else m.insert sshWildcard users.allowedUserIDs

def ConnResources.addSSH (target : Peer) (users : SSHUsers) (rule : PolicyRule)
    (st : ConnResources) : ConnResources :=
  if rule.protocol = .netbirdSSH then
    { st with sshEnabled := true, authorizedUsers := authorizeNative users rule st.authorizedUsers }
  else if policyRuleImpliesLegacySSH rule && target.sshEnabled then
    { st with
      sshEnabled := true
      authorizedUsers := st.authorizedUsers.insert sshWildcard users.allowedUserIDs }
  else st

/-- May the rule enable SSH on the target? -/
def sshApplies (target : Peer) (rule : PolicyRule) : Bool :=
  rule.protocol == .netbirdSSH || policyRuleImpliesLegacySSH rule && target.sshEnabled

theorem ConnResources.addSSH_of_not_applies {target : Peer} {users : SSHUsers} {rule : PolicyRule}
    (h : sshApplies target rule = false) (st : ConnResources) : st.addSSH target users rule = st := by
  simp only [sshApplies, Bool.or_eq_false_iff, beq_eq_false_iff_ne] at h
  simp [addSSH, h.1, h.2]

/-! ### The sides of a rule -/

inductive Side where
  | sources
  | destinations
  deriving DecidableEq

def Side.other : Side → Side
  | .sources => .destinations
  | .destinations => .sources

@[simp] theorem Side.other_other (side : Side) : side.other.other = side := by
  cases side <;> rfl

theorem Side.exists_iff {P : Side → Prop} : (∃ side, P side) ↔ P .destinations ∨ P .sources := by
  constructor
  · rintro ⟨side, h⟩
    cases side with
    | sources => exact .inr h
    | destinations => exact .inl h
  · rintro (h | h) <;> exact ⟨_, h⟩

/-- The resource is a single peer, named by its ID. -/
def Resource.isPeer (r : Resource) : Bool :=
  r.type == .peer && r.id != ""

namespace PolicyRule

def resourceOf (rule : PolicyRule) : Side → Resource
  | .sources => rule.sourceResource
  | .destinations => rule.destinationResource

def groupsOf (rule : PolicyRule) : Side → List String
  | .sources => rule.sources
  | .destinations => rule.destinations

end PolicyRule

/-- The posture checks for a side; destinations are not checked. -/
def Policy.checksOf (policy : Policy) : Side → List String
  | .sources => policy.sourcePostureChecks
  | .destinations => []

/-- One side of a rule as the target sees it: the other peers on it, and whether the
target is on it itself. -/
structure Members where
  peers : List Peer := []
  target : Bool := false
  deriving DecidableEq

/-- The target sets the flag and is not listed. -/
def Members.of (peerID : String) (peers : List Peer) : Members where
  peers := peers.filter (·.id != peerID)
  target := peers.any (·.id == peerID)

theorem Members.of_target {peerID : String} {peers : List Peer} :
    (Members.of peerID peers).target = true ↔ ∃ q ∈ peers, q.id = peerID := by
  simp [Members.of]

/-- A side is the peer of a direct resource, or else the members of its groups that pass
the posture checks. -/
def sideMembers (fromResource : Resource → Members) (fromGroups : List String → List String → Members)
    (policy : Policy) (rule : PolicyRule) (side : Side) : Members :=
  if (rule.resourceOf side).isPeer then fromResource (rule.resourceOf side)
  else fromGroups (rule.groupsOf side) (policy.checksOf side)

/-! ### The loop -/

namespace ConnResources

variable (env : MapEnv) (target : Peer) (users : SSHUsers)

/-- The peers on a side are reached if the target is on the other. -/
def reach (view : Side → Members) (rule : PolicyRule) (side : Side) (direction : Direction)
    (st : ConnResources) : ConnResources :=
  if (view side.other).target then generate env target rule direction st (view side).peers else st

def applyRule (view : Side → Members) (st : ConnResources) (rule : PolicyRule) : ConnResources :=
  let st :=
    if rule.bidirectional then
      reach env target view rule .sources .outbound
        (reach env target view rule .destinations .inbound st)
    else st
  let st := reach env target view rule .destinations .outbound st
  let st := reach env target view rule .sources .inbound st
  if (view .destinations).target then st.addSSH target users rule else st

def applyPolicy (view : Policy → PolicyRule → Side → Members) (st : ConnResources)
    (policy : Policy) : ConnResources :=
  if !policy.enabled then st
  else policy.rules.foldl (fun st rule =>
    if !rule.enabled then st else applyRule env target users (view policy rule) st rule) st

end ConnResources

open ConnResources in
/-- The loop of `GetPeerConnectionResources`, with the sides of the rules as a parameter. -/
def connectionResources (env : MapEnv) (target : Peer) (users : SSHUsers)
    (view : Policy → PolicyRule → Side → Members) (policies : List Policy) : ConnResources :=
  policies.foldl (applyPolicy env target users view) {}

/-- The rules that the loop applies, with their policies. -/
def enabledRules (policies : List Policy) : List (Policy × PolicyRule) :=
  (policies.filter (·.enabled)).flatMap fun policy =>
    (policy.rules.filter (·.enabled)).map (policy, ·)

/-- The access-control part of a network map. -/
structure AclPart where
  peersToConnect : List Peer := []
  expiredPeers : List Peer := []
  firewallRules : List FirewallRule := []
  authorizedUsers : StringMap (List String) := ∅
  enableSSH : Bool := false
  deriving DecidableEq

/-- Is the peer set aside because its login has expired? -/
def Settings.expires (settings : Settings) (env : MapEnv) (p : Peer) : Bool :=
  settings.peerLoginExpirationEnabled && p.loginExpired settings.peerLoginExpiration env.now

/-- Peers whose login has expired are set aside. -/
def ConnResources.aclPart (env : MapEnv) (settings : Settings) (res : ConnResources) : AclPart where
  peersToConnect := res.peers.filter fun p => !settings.expires env p
  expiredPeers := res.peers.filter (settings.expires env)
  firewallRules := res.rules
  authorizedUsers := res.authorizedUsers
  enableSSH := res.sshEnabled

theorem ConnResources.mem_aclPart {env : MapEnv} {settings : Settings} {res : ConnResources}
    {p : Peer} :
    p ∈ (res.aclPart env settings).peersToConnect ++ (res.aclPart env settings).expiredPeers ↔
      p ∈ res.peers := by
  cases h : settings.expires env p <;> simp [aclPart, h]

/-! ### What a rule does -/

theorem mem_enabledRules {policies : List Policy} {pr : Policy × PolicyRule} :
    pr ∈ enabledRules policies ↔
      pr.1 ∈ policies ∧ pr.1.enabled = true ∧ pr.2 ∈ pr.1.rules ∧ pr.2.enabled = true := by
  obtain ⟨policy, rule⟩ := pr
  simp only [enabledRules, mem_flatMap, mem_map, mem_filter, Prod.mk.injEq]
  constructor
  · rintro ⟨policy', ⟨hmem, hen⟩, rule', ⟨hrule, hren⟩, rfl, rfl⟩
    exact ⟨hmem, hen, hrule, hren⟩
  · rintro ⟨hmem, hen, hrule, hren⟩
    exact ⟨policy, ⟨hmem, hen⟩, rule, ⟨hrule, hren⟩, rfl, rfl⟩

theorem enabledRules_filter (f : Policy → Bool) (policies : List Policy) :
    enabledRules (policies.filter f) = (enabledRules policies).filter fun pr => f pr.1 := by
  induction policies with
  | nil => rfl
  | cons policy policies ih =>
    rw [enabledRules, filter_filter] at ih
    cases hf : f policy <;> cases hen : policy.enabled <;>
      simp [enabledRules, hf, hen, ih, filter_map, Function.comp_def]

theorem connectionResources_eq (env : MapEnv) (target : Peer) (users : SSHUsers)
    (view : Policy → PolicyRule → Side → Members) (policies : List Policy) :
    connectionResources env target users view policies =
      (enabledRules policies).foldl (fun st pr =>
        ConnResources.applyRule env target users (view pr.1 pr.2) st pr.2) {} := by
  rw [connectionResources, enabledRules, foldl_flatMap, foldl_filter]
  congr 1
  funext st policy
  rw [ConnResources.applyPolicy, foldl_map, foldl_filter]
  cases policy.enabled
  · rfl
  · refine congrArg (foldl · st policy.rules) (funext₂ fun st rule => ?_)
    cases rule.enabled <;> rfl

section ApplyRule

open ConnResources

variable {env : MapEnv} {target : Peer} {users users' : SSHUsers} {view view' : Side → Members}
  {rule : PolicyRule}

theorem applyRule_of_absent (h : ∀ side, (view side).target = false) (st : ConnResources) :
    applyRule env target users view st rule = st := by
  simp [applyRule, reach, h]

/-- Two views of a rule have the same effect if for each side they list nobody, or agree on whether
the target is across from it and then on its peers; and if they agree on SSH. -/
theorem applyRule_congr (hreach : ∀ side, (view side).peers = [] ∧ (view' side).peers = [] ∨
      (view side.other).target = (view' side.other).target ∧
        ((view side.other).target = true → (view side).peers = (view' side).peers))
    (hssh : ∀ st : ConnResources,
      (if (view .destinations).target then st.addSSH target users rule else st) =
        if (view' .destinations).target then st.addSSH target users' rule else st)
    (st : ConnResources) :
    applyRule env target users view st rule = applyRule env target users' view' st rule := by
  have hreach : ∀ side direction st,
      reach env target view rule side direction st = reach env target view' rule side direction st := by
    intro side direction st
    rw [reach, reach]
    rcases hreach side with ⟨hnil, hnil'⟩ | ⟨htarget, hpeers⟩
    · rw [hnil, hnil']
      simp [generate]
    · rw [← htarget]
      split_ifs with ht
      · rw [hpeers ht]
      · rfl
  simp only [applyRule, hreach, hssh]

end ApplyRule

/-! ### What is collected -/

/-- Everything collected so far is about peers with the property. -/
structure ConnResources.Only (Q : Peer → Prop) (st : ConnResources) : Prop where
  peers : ∀ p ∈ st.peers, Q p
  rules : ∀ fr ∈ st.rules, ∃ p, Q p ∧ fr.peerIP = p.ipText

theorem ConnResources.Only.imp {Q Q' : Peer → Prop} {st : ConnResources} (h : st.Only Q)
    (himp : ∀ p, Q p → Q' p) : st.Only Q' := by
  refine ⟨fun p hp => himp p (h.peers p hp), fun fr hfr => ?_⟩
  obtain ⟨p, hp, hip⟩ := h.rules fr hfr
  exact ⟨p, himp p hp, hip⟩

/-- The peer is on a side of an enabled rule, and the target is on the other. -/
def AcrossFrom (view : Policy → PolicyRule → Side → Members) (policies : List Policy)
    (p : Peer) : Prop :=
  ∃ pr ∈ enabledRules policies, ∃ side,
    (view pr.1 pr.2 side.other).target = true ∧ p ∈ (view pr.1 pr.2 side).peers

/-- The rule is the base one, for some port or range of ports. -/
def FirewallRule.IsPortOf (fr base : FirewallRule) : Prop :=
  ∃ port portRange, fr = { base with port := port, portRange := portRange }

/-- Expanding a rule into ports changes nothing but the ports. -/
theorem isPortOf_of_mem_expand {env : MapEnv} {target : Peer} {fr base : FirewallRule} {rule : PolicyRule}
    (h : fr ∈ expandPortsAndRanges env base rule target) : fr.IsPortOf base := by
  have hports : ∀ fr ∈ (if rule.ports.length > 0
      then rule.ports.map fun port => { base with port := port }
      else rule.portRanges.filterMap (expandPortRange
        (peerSupportedFirewallFeatures env target.systemMeta.wtVersion) base)),
      fr.IsPortOf base := by
    intro fr hfr
    split_ifs at hfr
    · obtain ⟨port, -, rfl⟩ := mem_map.mp hfr
      exact ⟨port, _, rfl⟩
    · obtain ⟨range, -, hfr⟩ := mem_filterMap.mp hfr
      rw [expandPortRange] at hfr
      split_ifs at hfr
      all_goals exact ⟨_, _, (Option.some.inj hfr).symm⟩
  by_cases hssh : (shouldCheckRulesForNativeSSH
      (peerSupportedFirewallFeatures env target.systemMeta.wtVersion).nativeSSH rule target ||
        rule.protocol == .netbirdSSH) = true
  · rw [expandPortsAndRanges, if_pos hssh, addNativeSSHRule] at h
    generalize (if rule.ports.length > 0 then _ else _ : List FirewallRule) = ports at hports h
    split_ifs at h
    · exact hports fr h
    · rcases mem_append.mp h with h | h
      · exact hports fr h
      · exact ⟨_, _, mem_singleton.mp h⟩
    · exact hports fr h
  · exact hports fr (by rwa [expandPortsAndRanges, if_neg hssh] at h)

end Netbird
