/-
Which peers a network map lists.

A peer gets into a map from a side of a rule across from the target, as a router of a
network resource, or as a source peer of a resource that the target is a router for.
On the legacy path these are peers of the account, whether validated or not; on the
components path they are entries of the components.

* `mem_connected_iff` — the peers of the legacy map.
-/
import Netbird.NetworkMap.Built
import Netbird.NetworkMap.Requests

namespace Netbird

open List NetworkMapComponents NetworkResource

/-- The peers that a map lists, those with an expired login included. -/
def MapParts.connected (parts : MapParts) : List Peer :=
  parts.acl.peersToConnect ++ parts.acl.expiredPeers ++ parts.addedPeers

def MapArgs.policiesOf (args : MapArgs) (resourceID : String) : List Policy :=
  (args.resourcePolicies.lookup resourceID).getD []

theorem NetworkResource.toRoute_eq_some {env : MapEnv} {resource : NetworkResource} {peer : Peer}
    {router : NetworkRouter} {r : Route} (h : resource.toRoute env peer router = some r) :
    r.peerID = peer.id ∧ r.peer = peer.key ∧ r.id = resource.id ++ ":" ++ peer.id := by
  rw [toRoute] at h
  cases htype : resource.type with
  | domain =>
    rw [htype] at h
    obtain ⟨domains, -, rfl⟩ := Option.map_eq_some_iff.mp h
    exact ⟨rfl, rfl, rfl⟩
  | host | subnet =>
    rw [htype] at h
    rw [← Option.some.inj h]
    exact ⟨rfl, rfl, rfl⟩

theorem NetworkMapComponents.networkResourceToRoute_peerID (env : MapEnv) (resource : NetworkResource)
    (peer : Peer) (router : NetworkRouter) :
    (networkResourceToRoute env resource peer router).peerID = peer.id := by
  rw [networkResourceToRoute]
  cases resource.type with
  | host => rfl
  | subnet => rfl
  | domain => cases env.domainList resource.domain <;> rfl

variable {routes : List Route}

theorem mem_missingPeers {peerID p : String} {acl expired : List Peer}
    {isRouter : Bool} {sourcePeers : List String} :
    p ∈ missingPeers routes peerID acl expired isRouter sourcePeers ↔
      ((isRouter = true ∧ p ∈ sourcePeers) ∨ ∃ r ∈ routes, r.peerID = p) ∧
        p ∉ peerID :: (acl ++ expired).map (·.id) := by
  rw [missingPeers, mem_filter, mem_dedup, mem_append, mem_map, Bool.not_eq_true',
    ← Bool.not_eq_true, contains_iff_mem]
  cases isRouter <;> simp

namespace Account

variable {a : Account} {env : MapEnv} {args : MapArgs} {peer q : Peer} {peerID p : String}
  {validatedPeers : List String}

/-! ### The sides of a rule -/

variable {q : Peer}

theorem countedPeer_eq_some {checks : List String} :
    a.countedPeer validatedPeers checks p = some q ↔
      a.getPeer p = some q ∧ q.proxyMeta.embedded = false ∧
        a.validatePostureChecksOnPeer checks p = true ∧ p ∈ validatedPeers := by
  rw [countedPeer]
  rcases hpeer : a.getPeer p with _ | q'
  · simp
  · obtain ⟨-, rfl⟩ := getPeer_eq_some.mp hpeer
    simp only [Option.ite_none_left_eq_some, Bool.not_eq_true, Bool.not_eq_false', not_not,
      Option.some.injEq]
    constructor
    · rintro ⟨hemb, hpost, hval, rfl⟩
      exact ⟨rfl, hemb, hpost, hval⟩
    · rintro ⟨rfl, hemb, hpost, hval⟩
      exact ⟨hemb, hpost, hval, rfl⟩

/-- The peer is on the side of a rule for the legacy path: named by it, or counted as a member
of its groups. -/
def LegacyOnSide (a : Account) (validatedPeers : List String) (policy : Policy) (rule : PolicyRule)
    (side : Side) (q : Peer) : Prop :=
  a.getPeer q.id = some q ∧
    if (rule.resourceOf side).isPeer then (rule.resourceOf side).id = q.id
    else q.id ∈ (a.view validatedPeers).uniquePeerIDs (rule.groupsOf side) ∧
      a.countedPeer validatedPeers (policy.checksOf side) q.id = some q

section Sides

variable {policy : Policy} {rule : PolicyRule} {side : Side}

theorem mem_counted {groups checks : List String} :
    q ∈ ((a.view validatedPeers).uniquePeerIDs groups).filterMap (a.countedPeer validatedPeers checks) ↔
      q.id ∈ (a.view validatedPeers).uniquePeerIDs groups ∧
        a.countedPeer validatedPeers checks q.id = some q := by
  rw [mem_filterMap]
  constructor
  · rintro ⟨p, hp, hcounted⟩
    have hid : q.id = p := (getPeer_eq_some.mp (countedPeer_eq_some.mp hcounted).1).2
    rw [hid]
    exact ⟨hp, hcounted⟩
  · exact fun ⟨hp, hcounted⟩ => ⟨q.id, hp, hcounted⟩

theorem mem_ruleMembers : q ∈ (a.ruleMembers validatedPeers peerID policy rule side).peers ↔
      a.LegacyOnSide validatedPeers policy rule side q ∧ q.id ≠ peerID := by
  rw [ruleMembers, sideMembers, LegacyOnSide]
  split_ifs with hdirect
  · rw [getPeerFromResource]
    constructor
    · intro hq
      rcases hres : a.getPeer (rule.resourceOf side).id with _ | q'
      · simp [hres] at hq
      · rw [hres] at hq
        dsimp only at hq
        split_ifs at hq with hid
        · cases hq
        · obtain rfl := mem_singleton.mp hq
          have hid' := (getPeer_eq_some.mp hres).2
          exact ⟨⟨hid' ▸ hres, hid'.symm⟩, hid⟩
    · rintro ⟨⟨hget, hid⟩, hne⟩
      rw [hid, hget]
      dsimp only
      rw [if_neg hne]
      exact mem_singleton.mpr rfl
  · change q ∈ filter (·.id != peerID) _ ↔ _
    rw [mem_filter, mem_counted, bne_iff_ne]
    constructor
    · rintro ⟨⟨hmem, hcounted⟩, hne⟩
      exact ⟨⟨(countedPeer_eq_some.mp hcounted).1, hmem, hcounted⟩, hne⟩
    · rintro ⟨⟨-, hmem, hcounted⟩, hne⟩
      exact ⟨⟨hmem, hcounted⟩, hne⟩

theorem target_iff (hpeer : a.getPeer peer.id = some peer) :
    (a.ruleMembers validatedPeers peer.id policy rule side).target = true ↔
      a.LegacyOnSide validatedPeers policy rule side peer := by
  rw [ruleMembers, sideMembers, LegacyOnSide]
  split_ifs with hdirect
  · rw [getPeerFromResource]
    constructor
    · intro ht
      rcases hres : a.getPeer (rule.resourceOf side).id with _ | q
      · simp [hres] at ht
      · rw [hres] at ht
        dsimp only at ht
        split_ifs at ht with hid
        exact ⟨hpeer, (getPeer_eq_some.mp hres).2.symm.trans hid⟩
    · rintro ⟨-, hid⟩
      simp [hid, hpeer]
  · rw [getAllPeersFromGroups, Members.of_target]
    constructor
    · rintro ⟨q, hq, hid⟩
      obtain ⟨hmem, hcounted⟩ := mem_counted.mp hq
      have hget := (countedPeer_eq_some.mp hcounted).1
      obtain rfl : q = peer := Option.some.inj (hget.symm.trans (hid ▸ hpeer))
      exact ⟨hpeer, hmem, hcounted⟩
    · rintro ⟨-, hmem, hcounted⟩
      exact ⟨peer, mem_counted.mpr ⟨hmem, hcounted⟩, rfl⟩

/-- A peer that is on a side for the legacy path is on it when the components are built. -/
theorem LegacyOnSide.onSide (h : a.LegacyOnSide validatedPeers policy rule side q) :
    a.OnSide validatedPeers policy rule side q.id := by
  rw [OnSide]
  obtain ⟨hget, hside⟩ := h
  split_ifs at hside ⊢
  · exact hside
  · obtain ⟨-, -, hpost, hval⟩ := countedPeer_eq_some.mp hside.2
    refine ⟨hside.1, by simp [hget], hval, ?_⟩
    rw [passes, validatePosture_getFailed, hpost, Bool.true_or]

end Sides

/-- The peer is across from the target by an enabled rule, as the legacy path sees it. -/
def LegacyAcross (a : Account) (validatedPeers : List String) (peer q : Peer) : Prop :=
  ∃ pr ∈ enabledRules a.policies, ∃ side : Side,
    a.LegacyOnSide validatedPeers pr.1 pr.2 side.other peer ∧
      a.LegacyOnSide validatedPeers pr.1 pr.2 side q

theorem LegacyAcross.getPeer (h : a.LegacyAcross validatedPeers peer q) :
    a.getPeer q.id = some q := by
  obtain ⟨_, _, _, _, hq⟩ := h
  exact hq.1

theorem LegacyAcross.across (h : a.LegacyAcross validatedPeers peer q) :
    a.Across validatedPeers peer.id q.id := by
  obtain ⟨pr, hpr, side, ht, hq⟩ := h
  exact ⟨pr, hpr, side, ht.onSide, hq.onSide⟩

/-- What the legacy path collects from policies is about peers across from the target. -/
theorem connectionResources_across (hpeer : a.getPeer peer.id = some peer) :
    (a.getPeerConnectionResources env peer args).Only fun q =>
      a.LegacyAcross args.validatedPeers peer q ∧ q.id ≠ peer.id := by
  refine RuleRequest.connectionResources_only.imp ?_
  rintro q ⟨pr, hpr, side, ht, hmem⟩
  obtain ⟨hq, hne⟩ := mem_ruleMembers.mp hmem
  exact ⟨⟨pr, hpr, side, (target_iff hpeer).mp ht, hq⟩, hne⟩

/-- **The peers from policies**, on the legacy path, are the peers across from the target. -/
theorem mem_acl_iff (hpeer : a.getPeer peer.id = some peer) :
    q ∈ (a.aclPart env args peer).peersToConnect ++ (a.aclPart env args peer).expiredPeers ↔
      a.LegacyAcross args.validatedPeers peer q ∧ q.id ≠ peer.id := by
  rw [aclPart, ConnResources.mem_aclPart]
  constructor
  · exact (connectionResources_across hpeer).peers q
  · rintro ⟨⟨pr, hpr, side, ht, hq⟩, hne⟩
    have hacross : AcrossFrom (a.ruleMembers args.validatedPeers peer.id) a.policies q :=
      ⟨pr, hpr, side, (target_iff hpeer).mpr ht, mem_ruleMembers.mpr ⟨hq, hne⟩⟩
    have hlists : ∃ q' ∈ (a.getPeerConnectionResources env peer args).peers, q'.id = q.id :=
      RuleRequest.connectionResources_lists hacross
    -- the peer listed under the ID is the peer itself
    obtain ⟨q', hq', hid⟩ := hlists
    have hget := ((connectionResources_across hpeer).peers q' hq').1.getPeer
    rw [hid, hq.1] at hget
    rwa [Option.some.inj hget]

/-! ### Network resources on the legacy path -/

/-- What the legacy path finds for the network resources, if no policy lacks rules. -/
def sync (a : Account) (env : MapEnv) (args : MapArgs) (peerID : String) :
    ResourceSync (Option Route) :=
  (a.view args.validatedPeers).resourceSync args.routers args.policiesOf
    (a.getNetworkResourcesRoutes env args) peerID a.networkResources

theorem getNetworkResourcesRoutesToSync_eq (hrules : PoliciesHaveRules args) :
    a.getNetworkResourcesRoutesToSync env args peerID = .ok (a.sync env args peerID) := by
  refine (a.view args.validatedPeers).networkResourcesRoutesToSync_eq fun resource _ policy hpolicy => ?_
  rcases hlookup : args.resourcePolicies.lookup resource.id with _ | policies
  · simp [hlookup] at hpolicy
  · rw [hlookup] at hpolicy
    exact hrules resource.id policies hlookup policy hpolicy

variable {parts : MapParts}

/-- **The legacy parts** are computed unless a route of a resource is nil. -/
theorem mapParts_eq_ok (hrules : PoliciesHaveRules args) : a.mapParts env args peer = .ok parts ↔
      ∃ routes, (a.sync env args peer.id).routes = routes.map some ∧ parts = a.partsOf env args peer
          ⟨(a.sync env args peer.id).isRouter, routes, (a.sync env args peer.id).sourcePeers⟩ := by
  rw [mapParts, getNetworkResourcesRoutesToSync_eq hrules]
  change (a.sync env args peer.id).routes.mapM Checked.deref >>= _ = _ ↔ _
  rw [Except.bind_eq_ok]
  refine exists_congr fun routes => and_congr Checked.mapM_deref_eq_ok ?_
  exact ⟨fun h => (Except.ok.inj h).symm, fun h => h ▸ rfl⟩

theorem mem_sync_sourcePeers : p ∈ (a.sync env args peerID).sourcePeers ↔
      ∃ resource ∈ a.networkResources, resource.enabled = true ∧
        args.routers.hasRouter peerID resource = true ∧ ∃ policy ∈ args.policiesOf resource.id,
          p ∈ (a.view args.validatedPeers).sources policy ∧
            a.validatePostureChecksOnPeer policy.sourcePostureChecks p = true :=
  (a.view args.validatedPeers).mem_sourcePeers

/-- The two conversions of a resource into a route agree, if its domain can be converted. -/
theorem toRoute_eq {env : MapEnv} {resource : NetworkResource} {router : NetworkRouter}
    (hdomain : resource.type = .domain → (env.domainList resource.domain).isSome = true) :
    resource.toRoute env q router = some (networkResourceToRoute env resource q router) := by
  rw [toRoute, networkResourceToRoute]
  cases htype : resource.type with
  | domain =>
    obtain ⟨domains, hdomains⟩ := Option.isSome_iff_exists.mp (hdomain htype)
    simp [hdomains]
  | host | subnet => rfl

/-- The target is sent the route of the resource through the peer. -/
def RoutesThrough (a : Account) (args : MapArgs) (peerID : String) (resource : NetworkResource)
    (q : String) : Prop :=
  (a.getPeer q).isSome = true ∧ args.policiesOf resource.id ≠ [] ∧
    args.routers.hasRouter q resource = true ∧
    (q = peerID ∨ args.routers.hasRouter peerID resource = false ∧
      (a.view args.validatedPeers).admitted peerID (args.policiesOf resource.id) = true)

/-- **The routes of the resources** that the target is sent. -/
theorem mem_sync_routes {x : Option Route} : x ∈ (a.sync env args peerID).routes ↔
      ∃ resource ∈ a.networkResources, resource.enabled = true ∧ ∃ routing router,
        a.getPeer routing.id = some routing ∧ a.RoutesThrough args peerID resource routing.id ∧
        (args.routers.ofNetwork resource.networkID).lookup routing.id = some router ∧
        x = resource.toRoute env routing router := by
  have hrouter : ∀ resource id router,
      x ∈ a.getNetworkResourcesRoutes env args resource id router ↔
        args.policiesOf resource.id ≠ [] ∧ ∃ routing, a.getPeer id = some routing ∧
          x = resource.toRoute env routing router := by
    intro resource id router
    change x ∈ (if (args.policiesOf resource.id).length > 0 then _ else _) ↔ _
    split_ifs with hne
    · cases a.getPeer id <;> simp [length_pos_iff.mp hne]
    · have hnil : args.policiesOf resource.id = [] := by simpa using hne
      simp [hnil]
  rw [sync, View.resourceSync, mem_flatMap]
  simp only [mem_filter, View.mem_routesFor, hrouter, and_assoc]
  refine exists_congr fun resource => and_congr_right fun _ => and_congr_right fun _ => ?_
  constructor
  · rintro ⟨id, router, hid, hthrough, hne, routing, hget, hx⟩
    obtain rfl := (getPeer_eq_some.mp hget).2
    exact ⟨routing, router, hget,
      ⟨by rw [hget]; rfl, hne, by rw [RoutersMap.hasRouter, hid]; rfl, hthrough⟩, hid, hx⟩
  · rintro ⟨routing, router, hget, ⟨-, hne, -, hthrough⟩, hid, hx⟩
    exact ⟨routing.id, router, hid, hthrough, hne, routing, hget, hx⟩

theorem RoutesThrough.route {resource : NetworkResource} (h : a.RoutesThrough args peerID resource p)
    (hmem : resource ∈ a.networkResources) (hen : resource.enabled = true) (env : MapEnv) :
    ∃ routing router, routing.id = p ∧
      resource.toRoute env routing router ∈ (a.sync env args peerID).routes := by
  obtain ⟨routing, hget⟩ := Option.isSome_iff_exists.mp h.1
  obtain ⟨router, hlookup⟩ := Option.isSome_iff_exists.mp h.2.2.1
  obtain rfl := (getPeer_eq_some.mp hget).2
  exact ⟨routing, router, rfl,
    mem_sync_routes.mpr ⟨resource, hmem, hen, routing, router, hget, h, hlookup, rfl⟩⟩

/-- The domains of the resources that are routed to the target can be converted. -/
def DomainsConvert (a : Account) (env : MapEnv) (args : MapArgs) (peerID : String) : Prop :=
  ∀ resource ∈ a.networkResources, resource.enabled = true → resource.type = .domain →
    ∀ q, a.RoutesThrough args peerID resource q → (env.domainList resource.domain).isSome = true

/-- **The legacy path returns** if and only if the domains can be converted. -/
theorem exists_routes_iff :
    (∃ routes : List Route, (a.sync env args peerID).routes = routes.map some) ↔
      a.DomainsConvert env args peerID := by
  constructor
  · rintro ⟨routes, hroutes⟩ resource hmem hen htype q hthrough
    obtain ⟨routing, router, -, hr⟩ := hthrough.route hmem hen env
    rw [hroutes, toRoute, htype] at hr
    obtain ⟨r, -, hr⟩ := mem_map.mp hr
    obtain ⟨domains, hdomains, -⟩ := Option.map_eq_some_iff.mp hr.symm
    rw [hdomains]
    rfl
  · intro hconvert
    have hderef : ∀ x ∈ (a.sync env args peerID).routes, ∃ r, Checked.deref x = .ok r := by
      intro x hx
      obtain ⟨resource, hmem, hen, routing, router, -, hthrough, -, rfl⟩ := mem_sync_routes.mp hx
      rw [toRoute_eq fun htype => hconvert resource hmem hen htype _ hthrough]
      exact ⟨_, rfl⟩
    obtain ⟨routes, hroutes⟩ := Except.mapM_total hderef
    exact ⟨routes, Checked.mapM_deref_eq_ok.mp hroutes⟩

theorem router_of_route {r : Route} (h : some r ∈ (a.sync env args peerID).routes) :
    ∃ resource ∈ a.networkResources, resource.enabled = true ∧ ∃ routing,
      a.getPeer r.peerID = some routing ∧ a.RoutesThrough args peerID resource r.peerID ∧
        r.peer = routing.key ∧ r.id = resource.id ++ ":" ++ routing.id := by
  obtain ⟨resource, hmem, hen, routing, router, hget, hthrough, -, hr⟩ := mem_sync_routes.mp h
  obtain ⟨hid, hkey, hroute⟩ := toRoute_eq_some hr.symm
  rw [hid]
  exact ⟨resource, hmem, hen, routing, hget, hthrough, hkey, hroute⟩

/-! ### Where the peers of a map come from -/

/-- The target needs the peer for a network resource: as the router of a route that it is sent, or
as a source peer of a resource that it is a router for. -/
def FromResources (a : Account) (args : MapArgs) (peerID p : String) : Prop :=
  ∃ resource ∈ a.networkResources, resource.enabled = true ∧
    (a.RoutesThrough args peerID resource p ∨
      args.routers.hasRouter peerID resource = true ∧ ∃ policy ∈ args.policiesOf resource.id,
        p ∈ (a.view args.validatedPeers).sources policy ∧
          a.validatePostureChecksOnPeer policy.sourcePostureChecks p = true)

theorem fromResources_iff (hroutes : (a.sync env args peerID).routes = routes.map some) :
    ((a.sync env args peerID).isRouter = true ∧ p ∈ (a.sync env args peerID).sourcePeers) ∨
        (∃ r ∈ routes, r.peerID = p) ↔ a.FromResources args peerID p := by
  constructor
  · rintro (⟨-, hp⟩ | ⟨r, hr, rfl⟩)
    · obtain ⟨resource, hmem, hen, hrouter, hp⟩ := mem_sync_sourcePeers.mp hp
      exact ⟨resource, hmem, hen, .inr ⟨hrouter, hp⟩⟩
    · have hr : some r ∈ (a.sync env args peerID).routes := by
        rw [hroutes]
        exact mem_map_of_mem hr
      obtain ⟨resource, hmem, hen, -, -, hthrough, -⟩ := router_of_route hr
      exact ⟨resource, hmem, hen, .inl hthrough⟩
  · rintro ⟨resource, hmem, hen, hthrough | ⟨hrouter, hp⟩⟩
    · obtain ⟨routing, router, rfl, hr⟩ := hthrough.route hmem hen env
      rw [hroutes] at hr
      obtain ⟨r, hr, hroute⟩ := mem_map.mp hr
      exact .inr ⟨r, hr, (toRoute_eq_some hroute.symm).1⟩
    · refine .inl ⟨?_, mem_sync_sourcePeers.mpr ⟨resource, hmem, hen, hrouter, hp⟩⟩
      exact any_eq_true.mpr ⟨resource, mem_filter.mpr ⟨hmem, hen⟩, hrouter⟩

/-- **The peers added for network resources**, on the legacy path, are those that the target needs
and does not have yet. -/
theorem mem_addedPeers (hroutes : (a.sync env args peer.id).routes = routes.map some) :
    q ∈ a.addedPeers env args peer
        ⟨(a.sync env args peer.id).isRouter, routes, (a.sync env args peer.id).sourcePeers⟩ ↔
      a.getPeer q.id = some q ∧ a.FromResources args peer.id q.id ∧
        q.id ∉ peer.id :: ((a.aclPart env args peer).peersToConnect ++
          (a.aclPart env args peer).expiredPeers).map (·.id) := by
  rw [addedPeers, mem_filterMap]
  simp only [mem_missingPeers, fromResources_iff hroutes]
  constructor
  · rintro ⟨p, hp, hget⟩
    obtain rfl := (getPeer_eq_some.mp hget).2
    exact ⟨hget, hp⟩
  · exact fun ⟨hget, hp⟩ => ⟨q.id, hp, hget⟩

/-- **The peers of the legacy map** are the other peers of the account that are across from the
target or needed for a resource. -/
theorem mem_connected_iff (hpeer : a.getPeer peer.id = some peer) (hrules : PoliciesHaveRules args)
    (hparts : a.mapParts env args peer = .ok parts) :
    q ∈ parts.connected ↔ a.getPeer q.id = some q ∧ q.id ≠ peer.id ∧
      (a.LegacyAcross args.validatedPeers peer q ∨ a.FromResources args peer.id q.id) := by
  obtain ⟨routes, hroutes, rfl⟩ := (mapParts_eq_ok hrules).mp hparts
  rw [MapParts.connected, mem_append]
  change q ∈ (a.aclPart env args peer).peersToConnect ++ (a.aclPart env args peer).expiredPeers ∨
    q ∈ a.addedPeers env args peer _ ↔ _
  rw [mem_acl_iff hpeer, mem_addedPeers hroutes, mem_cons, not_or]
  constructor
  · rintro (⟨hq, hne⟩ | ⟨hget, hfrom, hne, -⟩)
    · exact ⟨hq.getPeer, hne, .inl hq⟩
    · exact ⟨hget, hne, .inr hfrom⟩
  · rintro ⟨hget, hne, hq⟩
    by_cases hacross : a.LegacyAcross args.validatedPeers peer q
    · exact .inl ⟨hacross, hne⟩
    · refine .inr ⟨hget, hq.resolve_left hacross, hne, fun hid => hacross ?_⟩
      obtain ⟨q', hq', hid⟩ := mem_map.mp hid
      have hq' := ((mem_acl_iff hpeer).mp hq').1
      have hget' := hq'.getPeer
      rw [hid, hget] at hget'
      rwa [Option.some.inj hget']

namespace Built

variable {resources : List ResourceKeys} {c : NetworkMapComponents}
  (h : a.Built env args peer resources c)

include h

theorem getPeerInfo_id (hq : c.getPeerInfo p = some q) : c.getPeerInfo q.id = some q := by
  have hget := (h.getPeerInfo_eq_some.mp hq).2
  rwa [(getPeer_eq_some.mp hget).2]

theorem getPeerInfo_of_mem_ruleMembers {policy : Policy} {rule : PolicyRule} {side : Side}
    (hq : q ∈ (c.ruleMembers peerID policy rule side).peers) : c.getPeerInfo q.id = some q := by
  rw [NetworkMapComponents.ruleMembers, sideMembers] at hq
  split_ifs at hq
  · rw [NetworkMapComponents.getPeerFromResource] at hq
    split_ifs at hq
    · cases hq
    · rcases hinfo : c.getPeerInfo (rule.resourceOf side).id with _ | q'
      · simp [hinfo] at hq
      · rw [hinfo] at hq
        rw [mem_singleton.mp hq]
        exact h.getPeerInfo_id hinfo
  · obtain ⟨p, -, hcounted⟩ := mem_filterMap.mp (mem_of_mem_filter hq)
    rw [NetworkMapComponents.countedPeer] at hcounted
    rcases hinfo : c.getPeerInfo p with _ | q'
    · simp [hinfo] at hcounted
    · rw [hinfo] at hcounted
      split_ifs at hcounted
      rw [← Option.some.inj hcounted]
      exact h.getPeerInfo_id hinfo

theorem connectionResources_entries :
    (c.getPeerConnectionResources env c.peerID).Only fun q => c.getPeerInfo q.id = some q := by
  rw [NetworkMapComponents.getPeerConnectionResources]
  rcases hinfo : c.getPeerInfo c.peerID with _ | target
  · exact ⟨by simp, by simp⟩
  · refine RuleRequest.connectionResources_only.imp ?_
    rintro q ⟨pr, -, side, -, hmem⟩
    exact h.getPeerInfo_of_mem_ruleMembers hmem

/-- **The peers from policies** are entries of the components. -/
theorem getPeerInfo_of_acl
    (hq : q ∈ (c.aclPart env).peersToConnect ++ (c.aclPart env).expiredPeers) :
    c.getPeerInfo q.id = some q :=
  h.connectionResources_entries.peers q (ConnResources.mem_aclPart.mp hq)

theorem hasPeer_of_missing {acl expired : List Peer}
    (hp : p ∈ missingPeers (c.sync env).routes c.peerID acl expired (c.sync env).isRouter
      (c.sync env).sourcePeers) : c.hasPeer p = true := by
  rcases mem_append.mp (mem_dedup.mp (mem_of_mem_filter hp)) with hp | hp
  · split_ifs at hp
    · obtain ⟨resource, -, -, -, policy, -, -, hpost⟩ := c.view.mem_sourcePeers.mp hp
      exact (Bool.and_eq_true_iff.mp hpost).1
    · cases hp
  · obtain ⟨r, hr, rfl⟩ := mem_map.mp hp
    obtain ⟨resource, -, hr⟩ := mem_flatMap.mp hr
    obtain ⟨id, router, -, -, hr⟩ := c.view.mem_routesFor.mp hr
    rw [NetworkMapComponents.getNetworkResourcesRoutes] at hr
    split_ifs at hr
    · rcases hinfo : c.getPeerInfo id with _ | q
      · simp [hinfo] at hr
      · rw [hinfo] at hr
        rw [mem_singleton.mp hr, networkResourceToRoute_peerID]
        exact (h.getPeerInfo_eq_some.mp (h.getPeerInfo_id hinfo)).1
    · cases hr

theorem getRouterPeerInfo_eq_some (hq : c.getRouterPeerInfo p = some q) : a.getPeer p = some q := by
  rw [getRouterPeerInfo, h.eq, componentsFrom, Keyed.lookup_ofKeys] at hq
  split_ifs at hq
  exact hq

/-- **The peers from network resources** are entries of the components. -/
theorem getPeerInfo_of_added
    (hq : q ∈ c.addedPeers env (c.sync env)) : c.getPeerInfo q.id = some q := by
  obtain ⟨p, hp, hq⟩ := mem_filterMap.mp hq
  have hhas := h.hasPeer_of_missing hp
  rw [Option.orElse_eq_orElse, Option.orElse_eq_or] at hq
  rcases Option.or_eq_some_iff.mp hq with hq | ⟨-, hq⟩
  · exact h.getPeerInfo_id hq
  · exact h.getPeerInfo_id (h.getPeerInfo_eq_some.mpr ⟨hhas, h.getRouterPeerInfo_eq_some hq⟩)

/-- **The peers of the other map** are entries of the components. -/
theorem getPeerInfo_of_connected (hrules : PoliciesHaveRules args)
    (hparts : a.componentParts env args peer = .ok parts) (hq : q ∈ parts.connected) :
    c.getPeerInfo q.id = some q := by
  obtain rfl := Except.ok.inj (hparts.symm.trans (h.componentParts_eq hrules))
  rcases mem_append.mp hq with hq | hq
  · exact h.getPeerInfo_of_acl hq
  · exact h.getPeerInfo_of_added hq

end Built

end Account

end Netbird
