/-
`NetworkMapComponents`: the parts of an account that matter for one peer, and
`Calculate`, which computes the network map of the peer from them alone.

A peer counts as validated here if it is among the peers of the components.  The
posture checks are not run again: the components say which peers failed which checks.
-/
import Netbird.NetworkMap.Legacy

namespace Netbird

structure NetworkMapComponents where
  peerID : String
  network : Network
  settings : Settings
  disabledManagementGroups : List String
  customZoneDomain : String
  /-- An ID that names no peer of the account has a nil entry. -/
  peers : StringMap (Option Peer)
  groups : StringMap Group
  policies : List Policy
  routes : List Route
  nameServerGroups : List NameServerGroup
  allDNSRecords : List SimpleRecord
  accountZones : List CustomZone
  resourcePoliciesMap : StringMap (List Policy)
  routersMap : RoutersMap
  networkResources : List NetworkResource
  groupIDToUserIDs : StringMap (List String)
  allowedUserIDs : List String
  /-- The pairs of a posture check and a peer that failed it. -/
  postureFailedPeers : List (String × String)
  routerPeers : StringMap Peer

namespace NetworkMapComponents

variable (env : MapEnv) (c : NetworkMapComponents) (peerID : String)

def getPeerInfo : Option Peer :=
  (c.peers.lookup peerID).join

def getRouterPeerInfo : Option Peer :=
  c.routerPeers.lookup peerID

def getGroupInfo (groupID : String) : Option Group :=
  c.groups.lookup groupID

/-- Is there an entry for the peer, nil or not? -/
def hasPeer : Bool :=
  (c.peers.lookup peerID).isSome

def getPeerGroups : List String :=
  (c.groups.entries.filter fun e => e.2.peers.contains peerID).map (·.1)

def validatePostureChecksOnPeer (postureCheckIDs : List String) (peerID : String) : Bool :=
  c.hasPeer peerID &&
    postureCheckIDs.all fun checkID => !c.postureFailedPeers.contains (checkID, peerID)

def view : View where
  peer := c.getPeerInfo
  group := c.getGroupInfo
  valid := c.hasPeer
  posture := c.validatePostureChecksOnPeer

/-! ### Access control -/

/-- The peer with the ID, if it counts as a member of a group. -/
def countedPeer (checks : List String) (peerID : String) : Option Peer :=
  match c.getPeerInfo peerID with
  | none => none
  | some peer => if !c.validatePostureChecksOnPeer checks peerID then none else some peer

def getAllPeersFromGroups (groups checks : List String) : Members :=
  Members.of peerID ((c.view.uniquePeerIDs groups).filterMap (c.countedPeer checks))

def getPeerFromResource (resource : Resource) : Members :=
  if resource.id = peerID then { target := true }
  else match c.getPeerInfo resource.id with
    | none => {}
    | some peer => { peers := [peer] }

def ruleMembers : Policy → PolicyRule → Side → Members :=
  sideMembers (c.getPeerFromResource peerID) (c.getAllPeersFromGroups peerID)

def getPeerConnectionResources (targetPeerID : String) : ConnResources :=
  match c.getPeerInfo targetPeerID with
  | none => {}
  | some targetPeer =>
    connectionResources env targetPeer ⟨c.groupIDToUserIDs, c.allowedUserIDs⟩
      (c.ruleMembers targetPeerID) c.policies

/-! ### Routes -/

def getRoutingPeerRoutes : TakenRoutes :=
  c.view.routingPeerRoutes true c.routes (c.getPeerInfo peerID <|> c.getRouterPeerInfo peerID) peerID

def getRoutesToSync (aclPeers : List Peer) : List Route :=
  routesToSync env c.getRoutingPeerRoutes peerID aclPeers (c.getPeerGroups peerID)

def getPeerRoutesFirewallRules : List RouteFirewallRule :=
  c.view.peerRoutesFirewallRules (policiesNaming c.policies)
    (c.getRoutingPeerRoutes peerID).enabled peerID

/-! ### Network resources -/

def policiesOf (resourceID : String) : List Policy :=
  (c.resourcePoliciesMap.lookup resourceID).getD []

/-- A domain that cannot be converted leaves the destination empty. -/
def networkResourceToRoute (resource : NetworkResource) (peer : Peer) (router : NetworkRouter) :
    Route :=
  match resource.type with
  | .domain =>
    match env.domainList resource.domain with
    | some domains => NetworkResource.domainRoute domains (resource.baseRoute peer router)
    | none => resource.baseRoute peer router
  | _ => resource.addressRoute (resource.baseRoute peer router)

def getNetworkResourcesRoutes (resource : NetworkResource) (peerID : String)
    (router : NetworkRouter) : List Route :=
  if (c.policiesOf resource.id).length > 0 then
    match c.getPeerInfo peerID with
    | some peer => [networkResourceToRoute env resource peer router]
    | none => []
  else []

def getNetworkResourcesRoutesToSync : Except Panic (ResourceSync Route) :=
  c.view.networkResourcesRoutesToSync c.routersMap c.policiesOf
    (c.getNetworkResourcesRoutes env) c.networkResources peerID

def getPeerNetworkResourceFirewallRules (routes : List Route) : List RouteFirewallRule :=
  match c.getPeerInfo peerID with
  | none => []
  | some peer => c.view.networkResourceFirewallRules c.policiesOf peer routes

/-! ### DNS -/

/-- `peerIsNameserver`: the addresses are compared as texts. -/
def peerIsNameserver (peerIPStr : String) (nsGroup : NameServerGroup) : Bool :=
  nsGroup.nameServers.any fun ns => peerIPStr == ns.ip.text

def getPeerNSGroups (groupList : List String) : List NameServerGroup :=
  match c.getPeerInfo peerID with
  | none => []
  | some peer => nsGroupsOf (peerIsNameserver peer.ipText) groupList c.nameServerGroups

def dnsConfig : DNSConfig :=
  let peerGroups := c.getPeerGroups c.peerID
  if dnsManagementStatus c.disabledManagementGroups peerGroups then
    let zone : CustomZone := { domain := c.customZoneDomain, records := c.allDNSRecords }
    { serviceEnable := true
      customZones :=
        (if c.customZoneDomain ≠ "" ∧ c.allDNSRecords.length > 0 then [zone] else []) ++
          c.accountZones
      nameServerGroups := c.getPeerNSGroups c.peerID peerGroups }
  else {}

/-! ### The map -/

def aclPart : AclPart :=
  (c.getPeerConnectionResources env c.peerID).aclPart env c.settings

/-- The peers added by `addNetworksRoutingPeers`. -/
def addedPeers (sync : ResourceSync Route) : List Peer :=
  let acl := c.aclPart env
  (missingPeers sync.routes c.peerID acl.peersToConnect acl.expiredPeers sync.isRouter
    sync.sourcePeers).filterMap fun p => c.getPeerInfo p <|> c.getRouterPeerInfo p

/-- The parts of the map, given what the loop over the network resources has found. -/
def partsOf (sync : ResourceSync Route) : MapParts where
  acl := c.aclPart env
  routes := c.getRoutesToSync env c.peerID (c.aclPart env).peersToConnect
  routeRules := c.getPeerRoutesFirewallRules c.peerID
  resourceRoutes := sync.routes
  resourceRules :=
    if sync.isRouter then c.getPeerNetworkResourceFirewallRules c.peerID sync.routes else []
  addedPeers := c.addedPeers env sync
  dns := c.dnsConfig

def mapParts : Except Panic MapParts := do
  let sync ← c.getNetworkResourcesRoutesToSync env c.peerID
  pure (c.partsOf env sync)

/-- The network map, from the components alone. -/
def calculate : Except Panic NetworkMap := do
  let parts ← c.mapParts env
  pure (parts.toNetworkMap c.network)

end NetworkMapComponents

end Netbird
