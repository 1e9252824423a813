/-
`Account.GetPeerNetworkMapComponents`: what is cut out of an account for one peer.

The maps of the components are filled key by key, and the value of a key is what the
account has for it.  So the model collects the keys: `ruleKeys` says what one enabled
rule contributes and `resourceKeys` what one network resource contributes, and the
components are read off the collected keys at the end.

`getPeersFromGroups` runs the posture checks and keeps a record of the failures,
which is all that `Calculate` knows of them later.
-/
import Netbird.NetworkMap.Components
import Netbird.NetworkMap.Pruning

namespace Netbird

namespace Account

variable (a : Account)

/-! ### Peers of groups, with their posture failures -/

/-- The first of the listed checks that the peer fails. -/
def validatePostureChecksOnPeerGetFailed (checks : List String) (peerID : String) : Bool × String :=
  match a.getPeer peerID with
  | none => (false, "")
  | some peer =>
    match checks.find? fun id => a.failsPosture id peer with
    | some id => (false, id)
    | none => (true, "")

/-- The state of the loop of `getPeersFromGroups`. -/
structure Scan where
  filteredPeerIDs : List String := []
  peerInGroups : Bool := false
  seen : List String := []
  failed : List (String × String) := []

/-- One member of a group: it is counted, unless it is unknown, not validated or fails a check
whose ID is not empty. -/
def Scan.visit (validatedPeers checks : List String) (peerID : String) (st : Scan)
    (pid : String) : Scan :=
  match a.getPeer pid with
  | none => st
  | some peer =>
    if peer.id ∉ validatedPeers then st
    else
      let (isValid, pname) := a.validatePostureChecksOnPeerGetFailed checks peer.id
      if !isValid && pname != "" then { st with failed := st.failed ++ [(pname, peer.id)] }
      else if peer.id = peerID then { st with peerInGroups := true }
      else { st with filteredPeerIDs := st.filteredPeerIDs ++ [peer.id] }

/-- One member of a group, the first time it is met. -/
def Scan.visitUnseen (validatedPeers checks : List String) (peerID : String) (st : Scan)
    (pid : String) : Scan :=
  if pid ∈ st.seen then st
  else Scan.visit a validatedPeers checks peerID { st with seen := pid :: st.seen } pid

/-- The loop over the groups; a group named "All", or a single group, replaces what was
counted so far and ends it. -/
def scanGroups (validatedPeers checks : List String) (peerID : String) (single : Bool) :
    Scan → List String → Scan
  | st, [] => st
  | st, gid :: groups =>
    match a.getGroup gid with
    | none => scanGroups validatedPeers checks peerID single st groups
    | some group =>
      if group.isGroupAll || single then
        group.peers.foldl (Scan.visit a validatedPeers checks peerID)
          { st with filteredPeerIDs := [], peerInGroups := false }
      else
        scanGroups validatedPeers checks peerID single
          (group.peers.foldl (Scan.visitUnseen a validatedPeers checks peerID) st) groups

variable (validatedPeers : List String) (peerID : String)

def getPeersFromGroups (groups checks : List String) : Scan :=
  a.scanGroups validatedPeers checks peerID (groups.length == 1) {} groups

variable (policy : Policy) (rule : PolicyRule)

/-- One side of a rule: a direct peer is taken as it is, group members are scanned. -/
def sideScan (side : Side) : Scan :=
  let resource := rule.resourceOf side
  if resource.isPeer then { filteredPeerIDs := [resource.id], peerInGroups := resource.id == peerID }
  else a.getPeersFromGroups validatedPeers peerID (rule.groupsOf side) (policy.checksOf side)

/-! ### What a rule contributes -/

/-- Keys and flags collected for the components. -/
structure RelevantKeys where
  peerIDs : List String := []
  groupIDs : List String := []
  neededGroupIDs : List String := []
  needAllowedUserIDs : Bool := false
  failed : List (String × String) := []

/-- The access-control groups of the enabled routes. -/
def routeAccessControlGroups : List String :=
  (a.routes.filter (·.enabled)).flatMap (·.accessControlGroups)

/-- Does the rule name an access-control group of a route? -/
def namesRoute : Bool :=
  rule.destinations.any a.routeAccessControlGroups.contains

/-- A policy is relevant for an enabled rule that names a route or has the peer on a side. -/
def ruleRelevant : Bool :=
  a.namesRoute rule || (a.sideScan validatedPeers peerID policy rule .sources).peerInGroups ||
    (a.sideScan validatedPeers peerID policy rule .destinations).peerInGroups

def policyRelevant : Bool :=
  policy.enabled &&
    policy.rules.any fun rule => rule.enabled && a.ruleRelevant validatedPeers peerID policy rule

def relevantPolicies : List Policy :=
  a.policies.filter (a.policyRelevant validatedPeers peerID)

/-- The peers and groups of a side, needed when the peer is on the other side. -/
def acrossKeys (side : Side) : List String × List String :=
  if (a.sideScan validatedPeers peerID policy rule side.other).peerInGroups then
    ((a.sideScan validatedPeers peerID policy rule side).filteredPeerIDs, rule.groupsOf side)
  else ([], [])

/-- Groups and users that an SSH rule will need. -/
def sshKeys (peerSSHEnabled : Bool) (rule : PolicyRule) : List String × Bool :=
  if rule.protocol = .netbirdSSH then
    if rule.authorizedGroups.entries.length > 0 then (rule.authorizedGroups.keys, false)
    else if rule.authorizedUser ≠ "" then ([], false)
    else ([], true)
  else ([], policyRuleImpliesLegacySSH rule && peerSSHEnabled)

def ruleKeys (peer : Peer) (policy : Policy) (rule : PolicyRule) : RelevantKeys :=
  let across := a.acrossKeys validatedPeers peer.id policy rule
  let ssh :=
    if (a.sideScan validatedPeers peer.id policy rule .destinations).peerInGroups
    then sshKeys peer.sshEnabled rule else ([], false)
  { peerIDs := (across .destinations).1 ++ (across .sources).1
    groupIDs := (if a.namesRoute rule then rule.sources ++ rule.destinations else []) ++
      (across .destinations).2 ++ (across .sources).2
    neededGroupIDs := ssh.1
    needAllowedUserIDs := ssh.2
    failed := (a.sideScan validatedPeers peer.id policy rule .sources).failed ++
      (a.sideScan validatedPeers peer.id policy rule .destinations).failed }

/-- The groups of the peer and those that routes mention. -/
def routeGroupIDs : List String :=
  a.getPeerGroups peerID ++ a.routes.flatMap (fun r => r.groups ++ r.peerGroups) ++
    a.routeAccessControlGroups

/-- `getPeersGroupsPoliciesRoutes`, without the policies and routes. -/
def relevantKeys (peer : Peer) : RelevantKeys :=
  let keys := (enabledRules a.policies).map fun pr => a.ruleKeys validatedPeers peer pr.1 pr.2
  { peerIDs := peer.id :: keys.flatMap (·.peerIDs)
    groupIDs := a.routeGroupIDs peer.id ++ keys.flatMap (·.groupIDs)
    neededGroupIDs := keys.flatMap (·.neededGroupIDs)
    needAllowedUserIDs := keys.any (·.needAllowedUserIDs)
    failed := keys.flatMap (·.failed) }

/-! ### What a network resource contributes -/

/-- `getPostureValidPeersSaveFailed`: the validated peers that pass, and the failures. -/
def getPostureValidPeersSaveFailed (validatedPeers checks inputPeers : List String) :
    List String × List (String × String) :=
  let validated := inputPeers.filter validatedPeers.contains
  (validated.filter fun p => (a.validatePostureChecksOnPeerGetFailed checks p).1,
    (validated.filter fun p => !(a.validatePostureChecksOnPeerGetFailed checks p).1).map fun p =>
      ((a.validatePostureChecksOnPeerGetFailed checks p).2, p))

/-- What the loop over the policies of a resource collects. -/
structure PolicyLoop where
  addSourcePeers : Bool
  peerIDs : List String := []
  groupIDs : List String := []
  failed : List (String × String) := []
  /-- Was `ResourcePoliciesMap` written? -/
  mapped : Bool := false

/-- The groups of the account that the rules of a policy mention. -/
def policyGroupIDs : List String :=
  (policy.rules.flatMap fun rule => rule.sources ++ rule.destinations).filter fun id =>
    (a.getGroup id).isSome

/-- Is the peer a source of the policy, by its first rule or by the source groups? -/
def isResourceSource : Bool :=
  if rule.sourceResource.isPeer then rule.sourceResource.id == peerID
  else policy.sourceGroups.any fun groupID => (a.members groupID).contains peerID

/-- One policy of a resource.  The flag says that source peers are collected: from the start
for a routing peer, else from the first policy on that lets the peer in. -/
def policyStep (st : PolicyLoop) (policy : Policy) : Except Panic PolicyLoop := do
  let rule ← Checked.index policy.rules 0
  if st.addSourcePeers then
    let sources := (a.view validatedPeers).sourcesBy policy rule
    let (valid, failed) :=
      a.getPostureValidPeersSaveFailed validatedPeers policy.sourcePostureChecks sources
    pure
      { st with
        peerIDs := st.peerIDs ++ valid
        failed := st.failed ++ failed
        groupIDs := st.groupIDs ++ a.policyGroupIDs policy
        mapped := true }
  else if !a.isResourceSource peerID policy rule then pure st
  else
    let (isValid, pname) := a.validatePostureChecksOnPeerGetFailed policy.sourcePostureChecks peerID
    if !isValid && pname != "" then pure { st with failed := st.failed ++ [(pname, peerID)] }
    else
      pure
        { st with
          addSourcePeers := true
          groupIDs := st.groupIDs ++ a.policyGroupIDs policy
          mapped := true }

def policyLoop (st : PolicyLoop) (policies : List Policy) : Except Panic PolicyLoop :=
  policies.foldlM (a.policyStep validatedPeers peerID) st

/-- Keys collected from one network resource. -/
structure ResourceKeys where
  peerIDs : List String := []
  groupIDs : List String := []
  failed : List (String × String) := []
  mapped : List String := []
  networkIDs : List String := []
  routerPeerIDs : List String := []
  resources : List NetworkResource := []

/-- The contribution of one network resource; none if it is disabled or no policies are given
for it. -/
def resourceKeys (args : MapArgs) (peerID : String) (resource : NetworkResource) :
    Except Panic ResourceKeys :=
  if !resource.enabled then pure {}
  else match args.resourcePolicies.lookup resource.id with
    | none => pure {}
    | some policies => do
      let routing := args.routers.ofNetwork resource.networkID
      let loop ← a.policyLoop args.validatedPeers peerID
        { addSourcePeers := (routing.lookup peerID).isSome } policies
      let routerPeers := routing.keys.filter fun id => (a.getPeer id).isSome
      pure
        { peerIDs := loop.peerIDs ++ routerPeers.filter args.validatedPeers.contains
          groupIDs := loop.groupIDs
          failed := loop.failed
          mapped := if loop.mapped then [resource.id] else []
          networkIDs := [resource.networkID]
          routerPeerIDs := routerPeers
          resources := if loop.addSourcePeers then [resource] else [] }

/-! ### The components -/

/-- `filterGroupPeers` on the groups with the given IDs; an ID that names no group of the
account has a nil entry, which is dereferenced. -/
def filterGroupPeers (groupIDs : List String) (hasPeer : String → Bool) :
    Except Panic (StringMap Group) :=
  if groupIDs.all fun id => (a.getGroup id).isSome then
    pure (Keyed.ofKeys (fun id => (a.getGroup id).bind (Group.prune hasPeer)) groupIDs)
  else .error .nilDereference

/-- `filterPostureFailedPeers`: failures of checks that some kept policy refers to, by peers that
are kept. -/
def filterPostureFailedPeers (policies : List Policy) (resourcePolicies : StringMap (List Policy))
    (hasPeer : String → Bool) (failed : List (String × String)) : List (String × String) :=
  let referenced := (policies ++ resourcePolicies.entries.flatMap (·.2)).flatMap
    (·.sourcePostureChecks)
  failed.filter fun e => referenced.contains e.1 && hasPeer e.2

def componentPeerIDs (args : MapArgs) (peer : Peer) (resources : List ResourceKeys) : List String :=
  (a.relevantKeys args.validatedPeers peer).peerIDs ++ resources.flatMap (·.peerIDs)

def componentGroupIDs (args : MapArgs) (peer : Peer) (resources : List ResourceKeys) :
    List String :=
  (a.relevantKeys args.validatedPeers peer).groupIDs ++ resources.flatMap (·.groupIDs)

variable (env : MapEnv) (args : MapArgs)

/-- The components with the collected keys and the filtered groups. -/
def componentsFrom (peer : Peer) (resources : List ResourceKeys)
    (groups : StringMap Group) : NetworkMapComponents :=
  let keys := a.relevantKeys args.validatedPeers peer
  let policies := a.relevantPolicies args.validatedPeers peer.id
  let peerIDs := a.componentPeerIDs args peer resources
  let resourcePolicies := Keyed.ofKeys args.resourcePolicies.lookup (resources.flatMap (·.mapped))
  { peerID := peer.id
    network := a.network
    settings := a.settings
    disabledManagementGroups := a.disabledManagementGroups
    customZoneDomain := args.peersCustomZone.domain
    peers := Keyed.ofKeys (fun id => some (a.getPeer id)) peerIDs
    groups := groups
    policies := policies
    routes := a.routes
    -- the groups and peers that network resources add below do not count here
    nameServerGroups := a.nameServerGroups.filter fun nsGroup =>
      nsGroup.enabled && nsGroup.groups.any keys.groupIDs.contains
    allDNSRecords := recordsOf ((keys.peerIDs.filterMap a.getPeer).map (·.ipText))
      args.peersCustomZone.records
    accountZones := filterPeerAppliedZones env args.accountZones (a.getPeerGroups peer.id)
    resourcePoliciesMap := resourcePolicies
    routersMap := Keyed.ofKeys (fun id => some (args.routers.ofNetwork id))
      (resources.flatMap (·.networkIDs))
    networkResources := resources.flatMap (·.resources)
    groupIDToUserIDs := Keyed.ofKeys args.groupIDToUserIDs.lookup keys.neededGroupIDs
    allowedUserIDs := if keys.needAllowedUserIDs then a.getAllowedUserIDs else []
    postureFailedPeers := filterPostureFailedPeers policies resourcePolicies peerIDs.contains
      (keys.failed ++ resources.flatMap (·.failed))
    routerPeers := Keyed.ofKeys a.getPeer (resources.flatMap (·.routerPeerIDs)) }

/-- The components for a validated peer of the account. -/
def componentsOf (peer : Peer) : Except Panic NetworkMapComponents := do
  let resources ← a.networkResources.mapM (a.resourceKeys args peer.id)
  let groups ← a.filterGroupPeers (a.componentGroupIDs args peer resources)
    (a.componentPeerIDs args peer resources).contains
  pure (a.componentsFrom env args peer resources groups)

/-- `GetPeerNetworkMapComponents`: nil for a peer that is unknown or not validated. -/
def getPeerNetworkMapComponents (peerID : String) : Except Panic (Option NetworkMapComponents) :=
  match a.getPeer peerID with
  | none => pure none
  | some peer =>
    if peerID ∉ args.validatedPeers then pure none
    else do
      let components ← a.componentsOf env args peer
      pure (some components)

def getPeerNetworkMapFromComponents (peerID : String) : Except Panic NetworkMap := do
  match ← a.getPeerNetworkMapComponents env args peerID with
  | none => pure { network := a.network }
  | some components => components.calculate env

/-- The parts that the components path computes for a validated peer of the account. -/
def componentParts (peer : Peer) : Except Panic MapParts := do
  let components ← a.componentsOf env args peer
  components.mapParts env

end Account

end Netbird
