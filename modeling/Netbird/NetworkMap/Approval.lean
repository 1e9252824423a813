/-
Peers that are not validated, and the network maps of others.

Both paths leave a peer that is not validated out of the groups of a rule.  But a peer
that a rule names itself is taken without a check on either path, and the legacy path
does not check the routers and the source peers of network resources.

* `MapParts.Only` — what a map shows, as one predicate on its parts;
* `Account.mapParts_only`, `Account.Built.partsOf_only` — both paths show validated peers only,
  on an account on which those three kinds of peers are validated;
* `unapproved_hidden_iff` — and on no other;
* `unapproved_peer_shown` — an account on which both paths show one.
-/
import Netbird.NetworkMap.RouteAgreement

namespace Netbird

open List Except

/-! ### What a map shows -/

/-- No peer of the account that is not validated shows in the map: not as a peer, not by the
address of a firewall rule, not by a source range of a route's rule. -/
structure NetworkMap.Hides (m : NetworkMap) (a : Account) (validatedPeers : List String) : Prop where
  peers : ∀ q ∈ m.peers ++ m.offlinePeers, q.id ∈ validatedPeers
  firewallRules : ∀ fr ∈ m.firewallRules, ∀ q ∈ a.peers, q.ipText = fr.peerIP → q.id ∈ validatedPeers
  routesFirewallRules : ∀ fr ∈ m.routesFirewallRules, ∀ x ∈ fr.sourceRanges,
    ∀ q ∈ a.peers, q.allowedIPs = x → q.id ∈ validatedPeers

/-- The ranges of a default permit. -/
def anyRanges : List String :=
  ["0.0.0.0/0", "::/0"]

theorem Peer.allowedIPs_not_any (q : Peer) : q.allowedIPs ∉ anyRanges := by
  have hlast : q.allowedIPs.toList.getLast? = some '2' := by
    rw [allowedIPs, String.toList_append, getLast?_append]
    rfl
  intro hmem
  rcases mem_pair.mp hmem with h | h <;> rw [h] at hlast <;> revert hlast <;> decide

/-- What the parts show are peers with the property. -/
structure MapParts.Only (Q : Peer → Prop) (parts : MapParts) : Prop where
  connected : ∀ q ∈ parts.connected, Q q
  firewallRules : ∀ fr ∈ parts.acl.firewallRules, ∃ q, Q q ∧ fr.peerIP = q.ipText
  sourceRanges : ∀ fr ∈ parts.resourceRules ++ parts.routeRules, ∀ x ∈ fr.sourceRanges,
    x ∈ anyRanges ∨ ∃ q, Q q ∧ x = q.allowedIPs

variable {parts : MapParts}

theorem MapParts.mem_connected_iff {network : Network} {q : Peer} :
    q ∈ (parts.toNetworkMap network).peers ++ (parts.toNetworkMap network).offlinePeers ↔
      q ∈ parts.connected := by
  simp only [toNetworkMap, connected, mem_append]
  tauto

/-! ### Sources of the rules for routes -/

namespace View

variable {v : View} {x : String} {fr : RouteFirewallRule}

/-- The range belongs to a peer that the view knows and takes for valid. -/
def ValidRange (v : View) (x : String) : Prop :=
  ∃ p q, v.valid p = true ∧ v.peer p = some q ∧ x = q.allowedIPs

theorem validRange_of_routeFirewallRules {peerID : String} {policies : List Policy} {route : Route}
    {dist : List String} (hfr : fr ∈ v.routeFirewallRules peerID policies route dist)
    (hx : x ∈ fr.sourceRanges) : v.ValidRange x := by
  obtain ⟨pr, -, hfr⟩ := mem_flatMap.mp hfr
  rw [generateRouteFirewallRules_eq_map] at hfr
  obtain ⟨_, -, rfl⟩ := mem_map.mp hfr
  obtain ⟨q, hq, rfl⟩ := mem_map.mp hx
  obtain ⟨p, hp, hpeer⟩ := mem_rulePeers.mp hq
  exact ⟨p, q, (mem_rulePeerIDs.mp hp).2.2.1, hpeer, rfl⟩

theorem validRange_of_peerRoutesFirewallRules {policiesOf : String → List Policy}
    {routes : List Route} {peerID : String}
    (hfr : fr ∈ v.peerRoutesFirewallRules policiesOf routes peerID) (hx : x ∈ fr.sourceRanges) :
    x ∈ anyRanges ∨ v.ValidRange x := by
  obtain ⟨route, -, hfr⟩ := mem_flatMap.mp hfr
  split_ifs at hfr with hopen
  · -- a route without access control is open to any address
    have hranges : ∀ fr ∈ getDefaultPermit route,
        fr.sourceRanges = ["::/0"] ∨ fr.sourceRanges = ["0.0.0.0/0"] := by
      rw [getDefaultPermit]
      split_ifs <;> simp
    left
    rcases hranges fr hfr with h | h <;> rw [h, mem_singleton] at hx <;> rw [hx] <;> decide
  · obtain ⟨_, -, hfr⟩ := mem_flatMap.mp hfr
    exact .inr (validRange_of_routeFirewallRules hfr hx)

theorem validRange_of_networkResourceFirewallRules {policiesOf : String → List Policy} {peer : Peer}
    {routes : List Route} (hfr : fr ∈ v.networkResourceFirewallRules policiesOf peer routes)
    (hx : x ∈ fr.sourceRanges) : v.ValidRange x := by
  obtain ⟨route, -, hfr⟩ := mem_flatMap.mp hfr
  exact validRange_of_routeFirewallRules (mem_of_mem_filter hfr) hx

end View

namespace Account

variable {a : Account} {env : MapEnv} {args : MapArgs} {peer q : Peer} {p x : String}
  {validatedPeers : List String}

def Validated (a : Account) (validatedPeers : List String) (q : Peer) : Prop :=
  a.getPeer q.id = some q ∧ q.id ∈ validatedPeers

/-- With distinct addresses, a map that shows validated peers only hides the others. -/
theorem hides_of_only {network : Network}
    (haddr : (a.peers.map (·.ipText)).Nodup) (h : parts.Only (a.Validated validatedPeers)) :
    (parts.toNetworkMap network).Hides a validatedPeers := by
  have hsame : ∀ q ∈ a.peers, ∀ q', a.Validated validatedPeers q' → q.ipText = q'.ipText →
      q.id ∈ validatedPeers := by
    intro q hq q' hq' hip
    rw [inj_on_of_nodup_map haddr hq (getPeer_eq_some.mp hq'.1).1 hip]
    exact hq'.2
  refine ⟨fun q hq => (h.connected q (MapParts.mem_connected_iff.mp hq)).2, ?_, ?_⟩
  · intro fr hfr q hq hip
    obtain ⟨q', hq', hip'⟩ := h.firewallRules fr hfr
    exact hsame q hq q' hq' (hip.trans hip')
  · intro fr hfr x hx q hq hip
    rcases h.sourceRanges fr hfr x hx with hany | ⟨q', hq', rfl⟩
    · exact absurd (hip ▸ hany) q.allowedIPs_not_any
    · rw [Peer.allowedIPs, Peer.allowedIPs, String.append_left_inj] at hip
      exact hsame q hq q' hq' hip

/-! ### The peers that are not checked -/

/-- **The peers that must be validated for the target's maps to show validated peers only**: the
paths do not check them. -/
structure Approved (a : Account) (args : MapArgs) (peerID : String) : Prop where
  /-- A peer that an enabled rule names, across from the target. -/
  direct : ∀ pr ∈ enabledRules a.policies, ∀ side : Side, (pr.2.resourceOf side).isPeer = true →
    a.OnSide args.validatedPeers pr.1 pr.2 side.other peerID →
      (a.getPeer (pr.2.resourceOf side).id).isSome = true →
        (pr.2.resourceOf side).id ∈ args.validatedPeers
  /-- The router of a route to a network resource that the target is sent. -/
  routers : ∀ resource ∈ a.networkResources, resource.enabled = true →
    ∀ p, a.RoutesThrough args peerID resource p → p ∈ args.validatedPeers
  /-- A source peer, passing the checks, of a network resource that the target is a router for. -/
  sources : ∀ resource ∈ a.networkResources, resource.enabled = true →
    args.routers.hasRouter peerID resource = true → ∀ policy ∈ args.policiesOf resource.id,
      ∀ p ∈ (a.view args.validatedPeers).sources policy,
        a.validatePostureChecksOnPeer policy.sourcePostureChecks p = true → p ∈ args.validatedPeers

theorem Approved.of_across {peerID : String} (h : a.Approved args peerID)
    (hp : a.Across args.validatedPeers peerID p) (hget : (a.getPeer p).isSome = true) :
    p ∈ args.validatedPeers := by
  obtain ⟨pr, hpr, side, hother, hon⟩ := hp
  by_cases hdirect : (pr.2.resourceOf side).isPeer = true
  · obtain rfl := (onSide_of_direct hdirect).mp hon
    exact h.direct pr hpr side hdirect hother hget
  · exact ((onSide_of_groups (by simpa using hdirect)).mp hon).2.2.1

/-! ### The legacy path -/

theorem validRange_view (h : (a.view validatedPeers).ValidRange x) :
    ∃ q, a.Validated validatedPeers q ∧ x = q.allowedIPs := by
  obtain ⟨p, q, hvalid, hpeer, rfl⟩ := h
  obtain rfl := (getPeer_eq_some.mp hpeer).2
  exact ⟨q, ⟨hpeer, contains_iff_mem.mp hvalid⟩, rfl⟩

/-- **The legacy map** shows validated peers only, if those that are not checked are. -/
theorem mapParts_only (hpeer : a.getPeer peer.id = some peer) (hrules : PoliciesHaveRules args)
    (happ : a.Approved args peer.id)
    (hparts : a.mapParts env args peer = .ok parts) : parts.Only (a.Validated args.validatedPeers) := by
  have hacross : ∀ q, a.LegacyAcross args.validatedPeers peer q → a.Validated args.validatedPeers q :=
    fun q hq => ⟨hq.getPeer, happ.of_across hq.across (by rw [hq.getPeer]; rfl)⟩
  refine ⟨fun q hq => ?_, ?_, ?_⟩
  · obtain ⟨hget, -, hq | hfrom⟩ := (mem_connected_iff hpeer hrules hparts).mp hq
    · exact hacross q hq
    · obtain ⟨resource, hmem, hen, hthrough | ⟨hrouter, policy, hpolicy, hp, hpost⟩⟩ := hfrom
      · exact ⟨hget, happ.routers resource hmem hen q.id hthrough⟩
      · exact ⟨hget, happ.sources resource hmem hen hrouter policy hpolicy q.id hp hpost⟩
  all_goals obtain ⟨routes, -, rfl⟩ := (mapParts_eq_ok hrules).mp hparts
  · intro fr hfr
    obtain ⟨q, ⟨hq, -⟩, hip⟩ := (connectionResources_across hpeer).rules fr hfr
    exact ⟨q, hacross q hq, hip⟩
  · intro fr hfr x hx
    rcases mem_append.mp hfr with hfr | hfr
    · change fr ∈ (if _ then _ else _) at hfr
      split_ifs at hfr
      · exact .inr (validRange_view (View.validRange_of_networkResourceFirewallRules hfr hx))
      · cases hfr
    · exact (View.validRange_of_peerRoutesFirewallRules hfr hx).imp_right validRange_view

/-! ### The components path -/

namespace Built

variable {resources : List ResourceKeys} {c : NetworkMapComponents}
  (h : a.Built env args peer resources c)

include h

theorem validated_of_getPeerInfo
    (hvalid : peer.id ∈ args.validatedPeers) (happ : a.Approved args peer.id)
    (hq : c.getPeerInfo q.id = some q) : a.Validated args.validatedPeers q := by
  obtain ⟨hhas, hget⟩ := h.getPeerInfo_eq_some.mp hq
  refine ⟨hget, ?_⟩
  rcases h.hasPeer_cases hhas with hid | hacross | hval
  · rwa [hid]
  · exact happ.of_across hacross (by rw [hget]; rfl)
  · exact hval.2

theorem validRange_view (hvalid : peer.id ∈ args.validatedPeers) (happ : a.Approved args peer.id)
    (hx : c.view.ValidRange x) : ∃ q, a.Validated args.validatedPeers q ∧ x = q.allowedIPs := by
  obtain ⟨p, q, -, hpeer, rfl⟩ := hx
  exact ⟨q, h.validated_of_getPeerInfo hvalid happ (h.getPeerInfo_id hpeer), rfl⟩

/-- **The map from components** shows validated peers only, if those that are not checked are. -/
theorem partsOf_only (hrules : PoliciesHaveRules args)
    (hvalid : peer.id ∈ args.validatedPeers) (happ : a.Approved args peer.id) :
    (c.partsOf env (c.sync env)).Only (a.Validated args.validatedPeers) := by
  have hentry := fun q => h.validated_of_getPeerInfo (q := q) hvalid happ
  refine ⟨fun q hq => hentry q ?_, fun fr hfr => ?_, fun fr hfr x hx => ?_⟩
  · exact h.getPeerInfo_of_connected hrules (h.componentParts_eq hrules) hq
  · obtain ⟨q, hq, hip⟩ := h.connectionResources_entries.rules fr hfr
    exact ⟨q, hentry q hq, hip⟩
  · rcases mem_append.mp hfr with hfr | hfr
    · change fr ∈ (if _ then _ else _) at hfr
      split_ifs at hfr
      · rw [NetworkMapComponents.getPeerNetworkResourceFirewallRules] at hfr
        rcases hinfo : c.getPeerInfo c.peerID with _ | target
        · simp [hinfo] at hfr
        · rw [hinfo] at hfr
          exact .inr (h.validRange_view hvalid happ
            (View.validRange_of_networkResourceFirewallRules hfr hx))
      · cases hfr
    · exact (View.validRange_of_peerRoutesFirewallRules hfr hx).imp_right
        (h.validRange_view hvalid happ)

theorem direct_listed
    (hpeer : a.getPeer peer.id = some peer) (hchecks : a.getPostureChecks "" = none)
    {pr : Policy × PolicyRule} (hpr : pr ∈ enabledRules a.policies) {side : Side}
    (hdirect : (pr.2.resourceOf side).isPeer = true)
    (hother : a.OnSide args.validatedPeers pr.1 pr.2 side.other peer.id)
    (hget : a.getPeer (pr.2.resourceOf side).id = some q) (hne : q.id ≠ peer.id) :
    ∃ q' ∈ (c.aclPart env).peersToConnect ++ (c.aclPart env).expiredPeers, q'.id = q.id := by
  have hid := (getPeer_eq_some.mp hget).2
  -- the policy is kept, with the target on one side and the peer on the other
  have hkept : pr ∈ enabledRules c.policies := by
    obtain ⟨hpolicy, hrest⟩ := mem_enabledRules.mp hpr
    rw [h.policies_eq]
    exact mem_enabledRules.mpr ⟨mem_filter.mpr ⟨hpolicy, relevant_of_onSide hpr hother⟩, hrest⟩
  have hinfo : c.getPeerInfo (pr.2.resourceOf side).id = some q :=
    h.getPeerInfo_eq_some.mpr
      ⟨h.hasPeer_of_across ⟨pr, hpr, side, hother, (onSide_of_direct hdirect).mpr rfl⟩, hget⟩
  have hmem : q ∈ (c.ruleMembers peer.id pr.1 pr.2 side).peers := by
    rw [NetworkMapComponents.ruleMembers, sideMembers, if_pos hdirect,
      NetworkMapComponents.getPeerFromResource, if_neg (hid ▸ hne), hinfo]
    exact mem_singleton_self q
  have htarget := h.getPeerInfo_eq_some.mpr ⟨h.hasPeer_target, hpeer⟩
  have hlists : ∃ q' ∈ (c.getPeerConnectionResources env c.peerID).peers, q'.id = q.id := by
    rw [NetworkMapComponents.getPeerConnectionResources, h.peerID_eq, htarget]
    exact RuleRequest.connectionResources_lists
      ⟨pr, hkept, side, h.target_of_onSide hpeer (fun _ hpass => (passes_eq hchecks hpeer).symm.trans hpass) hother, hmem⟩
  obtain ⟨q', hq', hid'⟩ := hlists
  exact ⟨q', ConnResources.mem_aclPart.mpr hq', hid'⟩

end Built

/-- A peer that an enabled rule names across from the target is in the map from components, one
that is needed for a resource in the legacy map; so they must be validated. -/
theorem approved_of_hides (hpeer : a.getPeer peer.id = some peer)
    (hvalid : peer.id ∈ args.validatedPeers) (hrules : PoliciesHaveRules args)
    (hchecks : a.getPostureChecks "" = none) {legacy components : MapParts}
    (hlegacy : a.mapParts env args peer = .ok legacy)
    (hcomponents : a.componentParts env args peer = .ok components)
    (hhides : ∀ q ∈ legacy.connected, q.id ∈ args.validatedPeers)
    (hhides' : ∀ q ∈ components.connected, q.id ∈ args.validatedPeers) :
    a.Approved args peer.id := by
  have hfrom : ∀ q, a.getPeer q.id = some q → a.FromResources args peer.id q.id →
      q.id ∈ args.validatedPeers := by
    intro q hget hfrom
    by_cases hid : q.id = peer.id
    · rwa [hid]
    · exact hhides q ((mem_connected_iff hpeer hrules hlegacy).mpr ⟨hget, hid, .inr hfrom⟩)
  refine ⟨?_, ?_, ?_⟩
  · intro pr hpr side hdirect hother hsome
    obtain ⟨resources, c, h, rfl⟩ := built_of_parts hrules hcomponents
    obtain ⟨q, hget⟩ := Option.isSome_iff_exists.mp hsome
    rw [← (getPeer_eq_some.mp hget).2]
    by_cases hid : q.id = peer.id
    · rwa [hid]
    · obtain ⟨q', hq', hid'⟩ := h.direct_listed hpeer hchecks hpr hdirect hother hget hid
      rw [← hid']
      exact hhides' q' (mem_append_left _ hq')
  · intro resource hmem hen p hthrough
    obtain ⟨q, hget⟩ := Option.isSome_iff_exists.mp hthrough.1
    obtain rfl := (getPeer_eq_some.mp hget).2
    exact hfrom q hget ⟨resource, hmem, hen, .inl hthrough⟩
  · intro resource hmem hen hrouter policy hpolicy p hp hpost
    obtain ⟨q, hget⟩ := Option.isSome_iff_exists.mp
      (getPeer_of_valid ((validatePosture_getFailed a _ p).trans hpost))
    obtain rfl := (getPeer_eq_some.mp hget).2
    exact hfrom q hget ⟨resource, hmem, hen, .inr ⟨hrouter, policy, hpolicy, hp, hpost⟩⟩

/-- **Peers that are not validated stay hidden** exactly if the peers that the paths do not check
are validated: then each path hides them, if it returns, and if both do, those peers are. -/
theorem unapproved_hidden_iff (env : MapEnv) (a : Account) (zone : CustomZone) (zones : List Zone)
    (validatedPeers : List String) (users : StringMap (List String)) (peerID : String) :
    let args := a.ownArgs zone zones validatedPeers users
    let legacy := a.getPeerNetworkMap env args peerID
    let components := a.getPeerNetworkMapFromComponents env args peerID
    let approved := (a.getPeer peerID).isSome = true → peerID ∈ validatedPeers →
      a.Approved args peerID
    ((a.peers.map (·.ipText)).Nodup → approved →
      (∀ m, legacy = .ok m → m.Hides a validatedPeers) ∧
        ∀ m, components = .ok m → m.Hides a validatedPeers) ∧
    (a.getPostureChecks "" = none → (∃ m, legacy = .ok m ∧ m.Hides a validatedPeers) →
      (∃ m, components = .ok m ∧ m.Hides a validatedPeers) → approved) := by
  intro args legacy components approved
  have hrules : PoliciesHaveRules args := policiesHaveRules_own rfl
  by_cases hvisible : ∃ peer, a.getPeer peerID = some peer ∧ peerID ∈ validatedPeers
  · obtain ⟨peer, hpeer, hvalid⟩ := hvisible
    obtain rfl := (getPeer_eq_some.mp hpeer).2
    have hlegacy : legacy = _ := getPeerNetworkMap_eq hpeer hvalid
    have hcomponents : components = _ := getPeerNetworkMapFromComponents_eq hpeer hvalid
    rw [hlegacy, hcomponents]
    refine ⟨fun haddr happ => ⟨fun m hm => ?_, fun m hm => ?_⟩, ?_⟩
    · obtain ⟨parts, hparts, rfl⟩ := map_eq_ok.mp hm
      exact hides_of_only haddr
        (mapParts_only hpeer hrules (happ (by rw [hpeer]; rfl) hvalid) hparts)
    · obtain ⟨parts, hparts, rfl⟩ := map_eq_ok.mp hm
      obtain ⟨resources, c, h, rfl⟩ := built_of_parts hrules hparts
      exact hides_of_only haddr (h.partsOf_only hrules hvalid (happ (by rw [hpeer]; rfl) hvalid))
    · rintro hchecks ⟨m, hm, hhides⟩ ⟨m', hm', hhides'⟩ - -
      obtain ⟨parts, hparts, rfl⟩ := map_eq_ok.mp hm
      obtain ⟨parts', hparts', rfl⟩ := map_eq_ok.mp hm'
      exact approved_of_hides hpeer hvalid hrules hchecks hparts hparts'
        (fun q hq => hhides.peers q (MapParts.mem_connected_iff.mpr hq))
        (fun q hq => hhides'.peers q (MapParts.mem_connected_iff.mpr hq))
  · -- both maps are empty
    have hnot : ∀ peer, a.getPeer peerID = some peer → peerID ∉ validatedPeers :=
      fun peer hpeer hvalid => hvisible ⟨peer, hpeer, hvalid⟩
    have hempty : NetworkMap.Hides { network := a.network } a validatedPeers :=
      ⟨by simp, by simp, by simp⟩
    have hlegacy : legacy = _ := (map_of_not_visible hnot).1
    have hcomponents : components = _ := (map_of_not_visible hnot).2
    rw [hlegacy, hcomponents]
    refine ⟨fun _ _ => ⟨fun m hm => ok.inj hm ▸ hempty, fun m hm => ok.inj hm ▸ hempty⟩, ?_⟩
    intro _ _ _ hsome hvalid
    obtain ⟨peer, hpeer⟩ := Option.isSome_iff_exists.mp hsome
    exact absurd hvalid (hnot peer hpeer)

end Account

/-! ### Sample accounts -/

/-- In the mesh the server is hidden from the laptop until it is validated. -/
theorem mesh_server_hidden : ∃ legacy components, meshAccount.getPeerNetworkMap plainEnv
        (meshAccount.ownArgs { domain := "" } [] ["laptop"] ∅) "laptop" = .ok legacy ∧
      meshAccount.getPeerNetworkMapFromComponents plainEnv
        (meshAccount.ownArgs { domain := "" } [] ["laptop"] ∅) "laptop" = .ok components ∧
      legacy.Hides meshAccount ["laptop"] ∧ components.Hides meshAccount ["laptop"] := by
  refine exists_both (·.enableSSH) rfl rfl fun legacy components hlegacy hcomponents _ _ => ?_
  have hhidden := (Account.unapproved_hidden_iff plainEnv meshAccount { domain := "" } []
    ["laptop"] ∅ "laptop").1 (by decide)
  refine (hhidden fun _ _ => ⟨?_, ?_, ?_⟩).imp (· legacy hlegacy) (· components hcomponents)
  · intro pr hpr side hdirect
    obtain rfl : pr = (meshPolicy, meshRule) := mem_singleton.mp hpr
    cases side <;> cases hdirect
  · exact fun resource hmem => absurd hmem not_mem_nil
  · exact fun resource hmem => absurd hmem not_mem_nil

/-- A rule that names the server. -/
def directRule : PolicyRule where
  id := "direct-rule"
  sources := ["laptops"]
  destinationResource := { id := "server", type := .peer }

def directAccount : Account where
  peers := [laptop, server]
  groups := [{ id := "laptops", peers := ["laptop"] }]
  policies := [{ id := "direct", rules := [directRule] }]
  peerIDs_nodup := laptop_server_nodup

/-- The server is not validated, and yet both maps of the laptop list it. -/
theorem unapproved_peer_shown : "server" ∉ ["laptop"] ∧ ∃ legacy components,
      directAccount.getPeerNetworkMap plainEnv
        (directAccount.ownArgs { domain := "" } [] ["laptop"] ∅) "laptop" = .ok legacy ∧
      directAccount.getPeerNetworkMapFromComponents plainEnv
        (directAccount.ownArgs { domain := "" } [] ["laptop"] ∅) "laptop" = .ok components ∧
      legacy.peers.map (·.id) = ["server"] ∧ components.peers.map (·.id) = ["server"] := by
  refine ⟨by decide, exists_both (fun m => m.peers.map (·.id)) rfl rfl fun _ _ _ _ h h' => ?_⟩
  exact ⟨h, h'⟩

end Netbird
