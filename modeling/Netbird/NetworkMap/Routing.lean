/-
Routes, network resources and their firewall rules.

Like the access-control part, these are computed twice: on the account, and on the
components that were cut out of it.  The two computations run the same loops over
different lookups.  `View` is what they look up; the loops are written once over it,
and `Account` and `NetworkMapComponents` each apply them to their own view.

The parts of a map that come from policies, from routes and from network resources are
kept apart (`MapParts`) until the end.
-/
import Netbird.Lib.Checked
import Netbird.NetworkMap.Acl

namespace Netbird

open List

/-- What a network map is computed from: peers and groups by ID, the peers that count as
validated, and the outcome of posture checks on a peer. -/
structure View where
  peer : String → Option Peer
  group : String → Option Group
  valid : String → Bool
  posture : List String → String → Bool

namespace View

variable (v : View)

/-- The members of a group; a group that does not exist has none. -/
def members (groupID : String) : List String :=
  match v.group groupID with
  | some group => group.peers
  | none => []

/-- The first group named "All" among the listed ones. -/
def firstAll (groups : List String) : Option Group :=
  (groups.filterMap v.group).find? (·.isGroupAll)

/-- `getUniquePeerIDsFromGroupsIDs`: all members of a group named "All" or of a single group,
else the members of the groups without repetition. -/
def uniquePeerIDs (groups : List String) : List String :=
  match v.firstAll groups with
  | some all => all.peers
  | none =>
    if groups.length = 1 then groups.flatMap v.members
    else (groups.flatMap v.members).dedup

end View

/-! ### Routes -/

/-- The routes of one routing peer, and the IDs already taken. -/
structure TakenRoutes where
  seen : List String := []
  enabled : List Route := []
  disabled : List Route := []
  deriving DecidableEq

/-- `takeRoute`, which gives the key of the peer to enabled routes; to disabled ones only
on the components (`keyDisabled`). -/
def TakenRoutes.take (keyDisabled : Bool) (key : String) (st : TakenRoutes) (r : Route) :
    TakenRoutes :=
  if r.id ∈ st.seen then st
  else if r.enabled then
    { st with seen := r.id :: st.seen, enabled := st.enabled ++ [{ r with peer := key }] }
  else
    { st with
      seen := r.id :: st.seen
      disabled := st.disabled ++ [if keyDisabled then { r with peer := key } else r] }

/-- The copy of a route for one member of its peer groups. -/
def Route.forMember (r : Route) (peerID : String) : Route :=
  { r with peer := peerID, peerGroups := [], id := r.id ++ ":" ++ peerID }

/-- The routes taken for one entry of the account's routes. -/
def TakenRoutes.takeEntry (v : View) (keyDisabled : Bool) (key peerID : String)
    (st : TakenRoutes) (r : Route) : TakenRoutes :=
  let st := r.peerGroups.foldl (fun st groupID =>
    if peerID ∈ v.members groupID then st.take keyDisabled key (r.forMember peerID) else st) st
  if r.peer = peerID then st.take keyDisabled key r else st

def View.routingPeerRoutes (v : View) (keyDisabled : Bool) (routes : List Route)
    (peerInfo : Option Peer) (peerID : String) : TakenRoutes :=
  match peerInfo with
  | none => {}
  | some peer => routes.foldl (TakenRoutes.takeEntry v keyDisabled peer.key peerID) {}

def filterRoutesByGroups (routes : List Route) (groupList : List String) : List Route :=
  routes.filter fun r => r.groups.any groupList.contains

def filterRoutesFromPeersOfSameHAGroup (env : MapEnv) (routes : List Route)
    (memberships : List String) : List Route :=
  routes.filter fun r => !memberships.contains (r.getHAUniqueID env)

/-- The loop of `GetRoutesToSync` over the peers to connect. -/
def routesToSync (env : MapEnv) (served : String → TakenRoutes) (peerID : String)
    (aclPeers : List Peer) (peerGroups : List String) : List Route :=
  let own := served peerID
  let membership := (own.enabled ++ own.disabled).map (·.getHAUniqueID env)
  own.enabled ++ aclPeers.flatMap fun peer =>
    filterRoutesFromPeersOfSameHAGroup env
      (filterRoutesByGroups (served peer.id).enabled peerGroups) membership

/-! ### Firewall rules of routes -/

structure RouteFirewallRule where
  policyID : String := ""
  routeID : String
  sourceRanges : List String
  action : PolicyTrafficAction
  destination : String
  protocol : PolicyRuleProtocol
  port : UInt16 := 0
  portRange : RulePortRange := {}
  domains : Option (List String) := none
  isDynamic : Bool := false
  deriving DecidableEq

def getDefaultPermit (r : Route) : List RouteFirewallRule :=
  let rule : RouteFirewallRule :=
    { sourceRanges := [if Addr.is6 r.network.addr then "::/0" else "0.0.0.0/0"]
      action := .accept
      destination := r.network.text
      protocol := .all
      domains := r.domains
      isDynamic := r.isDynamic
      routeID := r.id }
  if r.isDynamic then [rule, { rule with sourceRanges := ["::/0"] }] else [rule]

/-- The address range of a peer, `AllowedIPsFormat`. -/
def Peer.allowedIPs (p : Peer) : String :=
  p.ipText ++ "/32"

/-- `strconv.ParseUint(port, 10, 16)`. -/
def parseUint16 (port : String) : Option UInt16 :=
  let digits := port.toList
  if digits.length > 0 ∧ digits.all (·.isDigit) then
    let n := digits.foldl (fun n c => 10 * n + (c.toNat - '0'.toNat)) 0
    if n < 65536 then some (UInt16.ofNat n) else none
  else none

def generateRuleIDBase (rule : PolicyRule) (base : RouteFirewallRule) : String :=
  rule.id ++ ",".intercalate base.sourceRanges ++ Direction.inbound.text ++ base.protocol.text ++
    base.action.text

def RulePortRange.text (range : RulePortRange) : String :=
  toString range.start.toNat ++ "-" ++ toString range.finish.toNat

/-- The ports or port ranges of a rule; repeated ones and ports that are no number are left
out. -/
def generateRulesWithPorts (base : RouteFirewallRule) (rule : PolicyRule) :
    List RouteFirewallRule :=
  (Keyed.firsts (fun port => generateRuleIDBase rule base ++ port) rule.ports).filterMap fun port =>
    (parseUint16 port).map fun p => { base with port := p }

def generateRulesWithPortRanges (base : RouteFirewallRule) (rule : PolicyRule) :
    List RouteFirewallRule :=
  if rule.portRanges.length = 0 then [base]
  else
    (Keyed.firsts (fun range => generateRuleIDBase rule base ++ range.text) rule.portRanges).map
      fun range => { base with portRange := range }

def baseRouteRule (route : Route) (rule : PolicyRule) (groupPeers : List Peer) :
    RouteFirewallRule where
  policyID := rule.policyID
  routeID := route.id
  sourceRanges := groupPeers.map (·.allowedIPs)
  action := rule.action
  destination := route.network.text
  protocol := rule.protocol
  domains := route.domains
  isDynamic := route.isDynamic

def generateRouteFirewallRules (route : Route) (rule : PolicyRule) (groupPeers : List Peer) :
    List RouteFirewallRule :=
  let base := baseRouteRule route rule groupPeers
  if rule.ports.length = 0 then generateRulesWithPortRanges base rule
  else generateRulesWithPorts base rule

/-- The ports and port ranges for which a rule of a policy has firewall rules. -/
def PolicyRule.routePorts (rule : PolicyRule) : List (UInt16 × RulePortRange) :=
  if rule.ports.length = 0 then
    if rule.portRanges.length = 0 then [(0, {})]
    else (Keyed.firsts RulePortRange.text rule.portRanges).map fun range => (0, range)
  else (Keyed.firsts (fun port => port) rule.ports).filterMap fun port =>
    (parseUint16 port).map fun number => (number, {})

/-- **The firewall rules of a rule differ in their ports only**: the sources do not decide what
rules there are. -/
theorem generateRouteFirewallRules_eq_map (route : Route) (rule : PolicyRule) (peers : List Peer) :
    generateRouteFirewallRules route rule peers = rule.routePorts.map fun ports =>
      { baseRouteRule route rule peers with port := ports.1, portRange := ports.2 } := by
  -- repeated ports are skipped by keys that share the text before them
  have hkeys : ∀ {α : Type} (text : α → String) (l : List α), Keyed.firsts (fun x =>
      generateRuleIDBase rule (baseRouteRule route rule peers) ++ text x) l = Keyed.firsts text l :=
    fun _ => Keyed.firstsFrom_congr (fun x y => by rw [String.append_right_inj]) []
  rw [generateRouteFirewallRules, PolicyRule.routePorts]
  split_ifs with hports hranges
  · rw [generateRulesWithPortRanges, if_pos hranges]
    rfl
  · rw [generateRulesWithPortRanges, if_neg hranges, hkeys, map_map]
    rfl
  · rw [generateRulesWithPorts, hkeys fun port => port, map_filterMap]
    refine filterMap_congr fun port _ => ?_
    cases parseUint16 port <;> rfl

namespace View

variable (v : View)

def distributionGroupsPeers (route : Route) : List String :=
  route.groups.flatMap v.members

/-- May the peer be a source of a route rule? -/
def allowsSource (postureChecks : List String) (distributionPeers : List String) (p : String) :
    Bool :=
  distributionPeers.contains p && v.valid p && v.posture postureChecks p

/-- `getRulePeers`: the IDs that are allowed among the members of the source groups other
than the routing peer itself, and the direct source peer. -/
def rulePeerIDs (rule : PolicyRule) (postureChecks : List String) (peerID : String)
    (distributionPeers : List String) : List String :=
  let allowed := v.allowsSource postureChecks distributionPeers
  (rule.sources.flatMap v.members).filter (fun p => p != peerID && allowed p) ++
    if rule.sourceResource.isPeer && allowed rule.sourceResource.id
    then [rule.sourceResource.id] else []

def rulePeers (rule : PolicyRule) (postureChecks : List String) (peerID : String)
    (distributionPeers : List String) : List Peer :=
  (v.rulePeerIDs rule postureChecks peerID distributionPeers).dedup.filterMap v.peer

def routeFirewallRules (peerID : String) (policies : List Policy) (route : Route)
    (distributionPeers : List String) : List RouteFirewallRule :=
  (enabledRules policies).flatMap fun pr =>
    generateRouteFirewallRules route pr.2
      (v.rulePeers pr.2 pr.1.sourcePostureChecks peerID distributionPeers)

/-- The loop of `GetPeerRoutesFirewallRules` over the enabled routes of the peer. -/
def peerRoutesFirewallRules (policiesOf : String → List Policy) (enabledRoutes : List Route)
    (peerID : String) : List RouteFirewallRule :=
  enabledRoutes.flatMap fun route =>
    if route.accessControlGroups.length = 0 then getDefaultPermit route
    else route.accessControlGroups.flatMap fun accessGroup =>
      v.routeFirewallRules peerID (policiesOf accessGroup) route (v.distributionGroupsPeers route)

end View

/-- The policies that name the group as a destination, once for every rule that does. -/
def policiesNaming (policies : List Policy) (groupID : String) : List Policy :=
  policies.flatMap fun policy =>
    (policy.rules.filter (·.destinations.contains groupID)).map fun _ => policy

/-! ### Network resources -/

/-- `map[networkID]map[peerID]*NetworkRouter`. -/
abbrev RoutersMap := StringMap (StringMap NetworkRouter)

def RoutersMap.ofNetwork (routers : RoutersMap) (networkID : String) : StringMap NetworkRouter :=
  (routers.lookup networkID).getD ∅

/-- Is the peer a router of the resource's network? -/
def RoutersMap.hasRouter (routers : RoutersMap) (peerID : String) (resource : NetworkResource) :
    Bool :=
  ((routers.ofNetwork resource.networkID).lookup peerID).isSome

/-- The source peers of a policy of a resource, decided by its first rule: the peer that this
names, else the members of the source groups of all rules. -/
def View.sourcesBy (v : View) (policy : Policy) (rule : PolicyRule) : List String :=
  if rule.sourceResource.isPeer then [rule.sourceResource.id]
  else v.uniquePeerIDs policy.sourceGroups

def View.resourceSources (v : View) (policy : Policy) : Except Panic (List String) := do
  let rule ← Checked.index policy.rules 0
  pure (v.sourcesBy policy rule)

/-- What the loop over the network resources accumulates; `ρ` is the type of its routes. -/
structure ResourceSync (ρ : Type) where
  isRouter : Bool := false
  routes : List ρ := []
  sourcePeers : List String := []

namespace View

variable (v : View) {ρ : Type}

/-- The source peers of the policies that pass the posture checks. -/
def validSources (policies : List Policy) : Except Panic (List String) := do
  let sources ← policies.mapM fun policy => do
    let peers ← v.resourceSources policy
    pure (peers.filter (v.posture policy.sourcePostureChecks))
  pure sources.flatten

/-- Does one of the policies let the peer in?  The loop ends with the first that does. -/
def admits (peerID : String) (policies : List Policy) : Except Panic Bool :=
  policies.anyM fun policy => do
    let peers ← v.resourceSources policy
    pure (peers.contains peerID && v.posture policy.sourcePostureChecks peerID)

/-- One network resource in `GetNetworkResourcesRoutesToSync`. -/
def syncResource (routers : RoutersMap) (policiesOf : String → List Policy)
    (routesOf : NetworkResource → String → NetworkRouter → List ρ) (peerID : String)
    (st : ResourceSync ρ) (resource : NetworkResource) : Except Panic (ResourceSync ρ) :=
  if !resource.enabled then pure st
  else
    let routing := routers.ofNetwork resource.networkID
    match routing.lookup peerID with
    | some router => do
      let sources ← v.validSources (policiesOf resource.id)
      pure
        { isRouter := true
          routes := st.routes ++ routesOf resource peerID router
          sourcePeers := st.sourcePeers ++ sources }
    | none => do
      let admitted ← v.admits peerID (policiesOf resource.id)
      if admitted then
        pure { st with routes := st.routes ++ routing.entries.flatMap fun e => routesOf resource e.1 e.2 }
      else pure st

/-- The loop of `GetNetworkResourcesRoutesToSync`. -/
def networkResourcesRoutesToSync (routers : RoutersMap) (policiesOf : String → List Policy)
    (routesOf : NetworkResource → String → NetworkRouter → List ρ)
    (resources : List NetworkResource) (peerID : String) : Except Panic (ResourceSync ρ) :=
  resources.foldlM (v.syncResource routers policiesOf routesOf peerID) {}

def policiesSourcePeers (policies : List Policy) : List String :=
  policies.flatMap fun policy => policy.rules.flatMap fun rule =>
    rule.sources.flatMap v.members ++
      if rule.sourceResource.isPeer then [rule.sourceResource.id] else []

/-- The loop of `GetPeerNetworkResourceFirewallRules`: rules without sources are left out. -/
def networkResourceFirewallRules (policiesOf : String → List Policy) (peer : Peer)
    (routes : List Route) : List RouteFirewallRule :=
  (routes.filter (·.peer == peer.key)).flatMap fun route =>
    let policies := policiesOf route.getResourceID
    (v.routeFirewallRules peer.id policies route (v.policiesSourcePeers policies)).filter
      (·.sourceRanges.length > 0)

end View

/-- The IDs that `addNetworksRoutingPeers` finds missing: source peers, if the target is a
router, and the routing peers of the routes. -/
def missingPeers (routes : List Route) (peerID : String) (peersToConnect expiredPeers : List Peer)
    (isRouter : Bool) (sourcePeers : List String) : List String :=
  let known := peerID :: (peersToConnect ++ expiredPeers).map (·.id)
  ((if isRouter then sourcePeers else []) ++ routes.map (·.peerID)).dedup.filter
    (!known.contains ·)

/-! ### What the loop over the resources computes -/

namespace View

variable (v : View) {ρ : Type} {policiesOf : String → List Policy} {peerID : String}

/-- The source peers of a policy that has rules. -/
def sources (policy : Policy) : List String :=
  match policy.rules.head? with
  | some rule => v.sourcesBy policy rule
  | none => []

theorem resourceSources_eq {policy : Policy} (h : policy.rules ≠ []) :
    v.resourceSources policy = .ok (v.sources policy) := by
  obtain ⟨rule, rules, hrules⟩ := exists_cons_of_ne_nil h
  rw [resourceSources, sources, hrules]
  rfl

/-- The source peers of the policies that pass the checks. -/
def postureSources (policies : List Policy) : List String :=
  policies.flatMap fun policy => (v.sources policy).filter (v.posture policy.sourcePostureChecks)

/-- One of the policies lets the peer in. -/
def admitted (peerID : String) (policies : List Policy) : Bool :=
  policies.any fun policy =>
    (v.sources policy).contains peerID && v.posture policy.sourcePostureChecks peerID

theorem validSources_eq {policies : List Policy} (h : ∀ policy ∈ policies, policy.rules ≠ []) :
    v.validSources policies = .ok (v.postureSources policies) := by
  rw [validSources, Except.bind_eq_ok]
  refine ⟨policies.map fun policy => (v.sources policy).filter (v.posture policy.sourcePostureChecks),
    Except.mapM_eq_ok.mpr ?_, rfl⟩
  refine forall₂_map_right_iff.mpr (forall₂_same.mpr fun policy hpolicy => ?_)
  rw [v.resourceSources_eq (h policy hpolicy)]
  rfl

theorem admits_eq {policies : List Policy} (h : ∀ policy ∈ policies, policy.rules ≠ []) :
    v.admits peerID policies = .ok (v.admitted peerID policies) := by
  refine Except.anyM_eq_ok fun policy hpolicy => ?_
  rw [v.resourceSources_eq (h policy hpolicy)]
  rfl

variable (routers : RoutersMap) (policiesOf : String → List Policy)
  (routesOf : NetworkResource → String → NetworkRouter → List ρ) (peerID : String)

/-- The routes of one resource for the peer: its own if it is a router, those of all routers if
a policy lets it in. -/
def routesFor (resource : NetworkResource) : List ρ :=
  match (routers.ofNetwork resource.networkID).lookup peerID with
  | some router => routesOf resource peerID router
  | none =>
    if v.admitted peerID (policiesOf resource.id) then
      (routers.ofNetwork resource.networkID).entries.flatMap fun e => routesOf resource e.1 e.2
    else []

/-- The source peers of one resource, collected by its routers. -/
def sourcesFor (resource : NetworkResource) : List String :=
  if routers.hasRouter peerID resource then v.postureSources (policiesOf resource.id) else []

/-- The outcome of the loop, resource by resource. -/
def resourceSync (resources : List NetworkResource) : ResourceSync ρ where
  isRouter := (resources.filter (·.enabled)).any (routers.hasRouter peerID)
  routes := (resources.filter (·.enabled)).flatMap (v.routesFor routers policiesOf routesOf peerID)
  sourcePeers := (resources.filter (·.enabled)).flatMap (v.sourcesFor routers policiesOf peerID)

variable {routers policiesOf routesOf peerID}

theorem syncResource_eq {resource : NetworkResource} (hen : resource.enabled = true)
    (h : ∀ policy ∈ policiesOf resource.id, policy.rules ≠ []) (st : ResourceSync ρ) :
    v.syncResource routers policiesOf routesOf peerID st resource = .ok
      { isRouter := st.isRouter || routers.hasRouter peerID resource
        routes := st.routes ++ v.routesFor routers policiesOf routesOf peerID resource
        sourcePeers := st.sourcePeers ++ v.sourcesFor routers policiesOf peerID resource } := by
  rcases hlookup : (routers.ofNetwork resource.networkID).lookup peerID with _ | router
  · simp only [syncResource, routesFor, sourcesFor, RoutersMap.hasRouter, hen, hlookup, v.admits_eq h]
    cases v.admitted peerID (policiesOf resource.id) <;> simp [bind, Except.bind, pure, Except.pure]
  · simp [syncResource, routesFor, sourcesFor, RoutersMap.hasRouter, hen, hlookup, v.validSources_eq h,
      bind, Except.bind, pure, Except.pure]

/-- **The loop over the resources** collects the contribution of each enabled one. -/
theorem networkResourcesRoutesToSync_eq {resources : List NetworkResource}
    (h : ∀ resource ∈ resources, ∀ policy ∈ policiesOf resource.id, policy.rules ≠ []) :
    v.networkResourcesRoutesToSync routers policiesOf routesOf resources peerID =
      .ok (v.resourceSync routers policiesOf routesOf peerID resources) := by
  -- from any state on, the contributions are appended to it
  have hfrom : ∀ st : ResourceSync ρ,
      resources.foldlM (v.syncResource routers policiesOf routesOf peerID) st =
        let sync := v.resourceSync routers policiesOf routesOf peerID resources
        .ok
          { isRouter := st.isRouter || sync.isRouter
            routes := st.routes ++ sync.routes
            sourcePeers := st.sourcePeers ++ sync.sourcePeers } := by
    induction resources with
    | nil => simp [resourceSync, pure, Except.pure]
    | cons resource resources ih =>
      intro st
      have ih := ih fun r hr => h r (mem_cons_of_mem resource hr)
      rw [foldlM_cons]
      cases hen : resource.enabled with
      | false =>
        rw [syncResource]
        simpa [resourceSync, hen] using ih st
      | true =>
        rw [v.syncResource_eq hen (h resource mem_cons_self), Except.ok_bind, ih]
        simp [resourceSync, hen, Bool.or_assoc]
  simpa [networkResourcesRoutesToSync] using hfrom {}

theorem mem_sourcePeers {resources : List NetworkResource} {p : String} :
    p ∈ (v.resourceSync routers policiesOf routesOf peerID resources).sourcePeers ↔
      ∃ resource ∈ resources, resource.enabled = true ∧ routers.hasRouter peerID resource = true ∧
        ∃ policy ∈ policiesOf resource.id,
          p ∈ v.sources policy ∧ v.posture policy.sourcePostureChecks p = true := by
  have hfor : ∀ resource, p ∈ v.sourcesFor routers policiesOf peerID resource ↔
      routers.hasRouter peerID resource = true ∧ ∃ policy ∈ policiesOf resource.id,
        p ∈ v.sources policy ∧ v.posture policy.sourcePostureChecks p = true := by
    intro resource
    rw [sourcesFor]
    split_ifs with hrouter
    · simp [postureSources, hrouter]
    · simp [hrouter]
  simp only [resourceSync, mem_flatMap, mem_filter, hfor, and_assoc]

theorem mem_routesFor {resource : NetworkResource} {r : ρ} :
    r ∈ v.routesFor routers policiesOf routesOf peerID resource ↔
      ∃ id router, (routers.ofNetwork resource.networkID).lookup id = some router ∧
        (id = peerID ∨ routers.hasRouter peerID resource = false ∧
          v.admitted peerID (policiesOf resource.id) = true) ∧ r ∈ routesOf resource id router := by
  rw [routesFor, RoutersMap.hasRouter]
  rcases hlookup : (routers.ofNetwork resource.networkID).lookup peerID with _ | router
  · constructor
    · intro hr
      split_ifs at hr with hin
      · obtain ⟨e, he, hr⟩ := mem_flatMap.mp hr
        exact ⟨e.1, e.2, AList.mem_lookup_iff.mpr he, .inr ⟨rfl, hin⟩, hr⟩
      · cases hr
    · rintro ⟨id, router, hid, rfl | ⟨-, hin⟩, hr⟩
      · nomatch hlookup.symm.trans hid
      · rw [if_pos hin]
        exact mem_flatMap.mpr ⟨⟨id, router⟩, AList.mem_lookup_iff.mp hid, hr⟩
  · constructor
    · exact fun hr => ⟨peerID, router, hlookup, .inl rfl, hr⟩
    · rintro ⟨id, router', hid, rfl | ⟨⟨⟩, -⟩, hr⟩
      rwa [Option.some.inj (hlookup.symm.trans hid)]

end View

/-! ### DNS -/

def recordsOf (addresses : List String) (records : List SimpleRecord) : List SimpleRecord :=
  records.filter fun record => addresses.contains record.rData

/-- The record of an account zone; types other than the three known are left out. -/
def Record.simple (env : MapEnv) (record : Record) : Option SimpleRecord :=
  let simple (type : ℤ) (rData : String) : SimpleRecord :=
    { name := env.fqdn record.name, type := type, class_ := "IN", ttl := record.ttl, rData := rData }
  match record.type with
  | .a => some (simple 1 record.content)
  | .aaaa => some (simple 28 record.content)
  | .cname => some (simple 5 (env.fqdn record.content))
  | .other _ => none

def filterPeerAppliedZones (env : MapEnv) (accountZones : List Zone) (peerGroups : List String) :
    List CustomZone :=
  if peerGroups.length = 0 then []
  else
    (accountZones.filter fun zone => zone.enabled && zone.records.length > 0 &&
      zone.distributionGroups.any peerGroups.contains).map fun zone =>
        { domain := env.fqdn zone.domain
          records := zone.records.filterMap (Record.simple env)
          searchDomainDisabled := !zone.enableSearchDomain
          nonAuthoritative := true }

/-- Is DNS management left on by the groups of the peer? -/
def dnsManagementStatus (disabledManagementGroups peerGroups : List String) : Bool :=
  !disabledManagementGroups.any peerGroups.contains

/-- The enabled name-server groups that are distributed to one of the peer's groups and do not
contain the peer itself. -/
def nsGroupsOf (isNameserver : NameServerGroup → Bool) (groupList : List String)
    (nsGroups : List NameServerGroup) : List NameServerGroup :=
  nsGroups.filter fun nsGroup =>
    nsGroup.enabled && nsGroup.groups.any groupList.contains && !isNameserver nsGroup

/-! ### The network map -/

structure NetworkMap where
  peers : List Peer := []
  network : Network
  routes : List Route := []
  dnsConfig : DNSConfig := {}
  offlinePeers : List Peer := []
  firewallRules : List FirewallRule := []
  routesFirewallRules : List RouteFirewallRule := []
  authorizedUsers : StringMap (List String) := ∅
  enableSSH : Bool := false
  deriving DecidableEq

/-- What one path computes for a network map, before the lists are joined: the parts from
policies, from routes and from network resources are kept apart. -/
structure MapParts where
  acl : AclPart := {}
  routes : List Route := []
  routeRules : List RouteFirewallRule := []
  resourceRoutes : List Route := []
  resourceRules : List RouteFirewallRule := []
  /-- The peers added by `addNetworksRoutingPeers`. -/
  addedPeers : List Peer := []
  dns : DNSConfig := {}

def MapParts.toNetworkMap (parts : MapParts) (network : Network) : NetworkMap where
  peers := parts.acl.peersToConnect ++ parts.addedPeers
  network := network
  routes := parts.resourceRoutes ++ parts.routes
  dnsConfig := parts.dns
  offlinePeers := parts.acl.expiredPeers
  firewallRules := parts.acl.firewallRules
  routesFirewallRules := parts.resourceRules ++ parts.routeRules
  authorizedUsers := parts.acl.authorizedUsers
  enableSSH := parts.acl.enableSSH

end Netbird
