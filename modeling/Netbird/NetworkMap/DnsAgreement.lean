/-
The DNS configuration of the two network maps.

Both paths filter the records of the peers' zone by address.  The legacy path does it
last, with the target and all peers of the map; the components path does it first, with
the target and the peers across from it, before the peers for network resources are
known.  It also leaves the zone out when no record is left, and compares the addresses
of name servers as texts.

* `dns_agreement_iff` — exactly when the two configurations agree;
* `router_record_missing` — an account on which they differ.
-/
import Mathlib.Data.Finset.Basic
import Netbird.NetworkMap.RouteAgreement

namespace Netbird

open List Except

/-- Two configurations with the same content; name-server groups are compared as a set. -/
structure DNSConfig.Agrees (x y : DNSConfig) : Prop where
  serviceEnable : x.serviceEnable = y.serviceEnable
  nameServerGroups : x.nameServerGroups.toFinset = y.nameServerGroups.toFinset
  customZones : x.customZones = y.customZones

theorem DNSConfig.Agrees.refl (x : DNSConfig) : x.Agrees x :=
  ⟨rfl, rfl, rfl⟩

theorem recordsOf_eq_iff {addresses addresses' : List String} {records : List SimpleRecord} :
    recordsOf addresses records = recordsOf addresses' records ↔
      ∀ record ∈ records, (record.rData ∈ addresses ↔ record.rData ∈ addresses') := by
  constructor
  · intro heq record hrecord
    have hmem : record ∈ recordsOf addresses records ↔ record ∈ recordsOf addresses' records := by
      rw [heq]
    simpa [recordsOf, hrecord] using hmem
  · intro h
    refine filter_congr fun record hrecord => ?_
    rw [Bool.eq_iff_iff, contains_iff_mem, contains_iff_mem, h record hrecord]

theorem recordsOf_ne_nil_iff {addresses : List String} {records : List SimpleRecord} :
    recordsOf addresses records ≠ [] ↔ ∃ record ∈ records, record.rData ∈ addresses := by
  rw [recordsOf]
  simp

theorem mem_nsGroupsOf {isNameserver : NameServerGroup → Bool} {groupList : List String}
    {nsGroups : List NameServerGroup} {nsGroup : NameServerGroup} :
    nsGroup ∈ nsGroupsOf isNameserver groupList nsGroups ↔
      nsGroup ∈ nsGroups ∧ (nsGroup.enabled = true ∧ ∃ g ∈ nsGroup.groups, g ∈ groupList) ∧
        isNameserver nsGroup = false := by
  rw [nsGroupsOf, mem_filter, Bool.and_eq_true, Bool.and_eq_true, any_eq_true]
  simp only [contains_iff_mem, Bool.not_eq_true']

namespace Account

variable {a : Account} {env : MapEnv} {args : MapArgs} {peer : Peer} {x : String}

section

variable (a : Account)

/-- Both paths return, with the same DNS configuration. -/
def DnsAgrees (env : MapEnv) (args : MapArgs) (peerID : String) : Prop :=
  ∃ legacy components, a.getPeerNetworkMap env args peerID = .ok legacy ∧
    a.getPeerNetworkMapFromComponents env args peerID = .ok components ∧
      components.dnsConfig.Agrees legacy.dnsConfig

/-! ### What the account must satisfy -/

/-- The address belongs to a peer of the account with the property. -/
def AddressOf (Q : Peer → Prop) (x : String) : Prop :=
  ∃ q, a.getPeer q.id = some q ∧ Q q ∧ q.ipText = x

/-- The peer is the target or in its legacy map. -/
def InLegacyMap (args : MapArgs) (peer q : Peer) : Prop :=
  q.id = peer.id ∨ a.LegacyAcross args.validatedPeers peer q ∨ a.FromResources args peer.id q.id

/-- The peer is the target or across from it when the components are built. -/
def NearBy (validatedPeers : List String) (peer q : Peer) : Prop :=
  q.id = peer.id ∨ a.Across validatedPeers peer.id q.id

/-- Every enabled name-server group for the target is compared with it the same way. -/
def NameserversAgree (peer : Peer) : Prop :=
  ∀ nsGroup ∈ a.nameServerGroups,
    nsGroup.enabled = true → (∃ g ∈ nsGroup.groups, g ∈ a.getPeerGroups peer.id) →
      NetworkMapComponents.peerIsNameserver peer.ipText nsGroup = peerIsNameserver peer nsGroup

/-- The records of the peers near by are those of the peers in the legacy map, and there are
some. -/
def RecordsAgree (args : MapArgs) (peer : Peer) : Prop :=
  (∃ record ∈ args.peersCustomZone.records,
      a.AddressOf (a.NearBy args.validatedPeers peer) record.rData) ∧
    ∀ record ∈ args.peersCustomZone.records,
      (a.AddressOf (a.NearBy args.validatedPeers peer) record.rData ↔
        a.AddressOf (a.InLegacyMap args peer) record.rData)

end

/-- **What makes the two paths agree on DNS**: the groups that are looked up exist (else the
components path does not return), the domains of routed resources can be converted (else the
legacy path does not), and if DNS is managed, name servers and records agree. -/
structure DnsSafe (a : Account) (env : MapEnv) (args : MapArgs) (peer : Peer) : Prop where
  groups : ∀ g, a.LookedUp args.validatedPeers peer.id g → (a.getGroup g).isSome = true
  domains : a.DomainsConvert env args peer.id
  managed : dnsManagementStatus a.disabledManagementGroups (a.getPeerGroups peer.id) = true →
    a.NameserversAgree peer ∧ (args.peersCustomZone.domain ≠ "" → a.RecordsAgree args peer)

/-! ### Whose records are kept -/

/-- The addresses by which the legacy path selects records. -/
def legacyAddresses (parts : MapParts) (peer : Peer) : List String :=
  (peer :: (parts.acl.peersToConnect ++ parts.addedPeers ++ parts.acl.expiredPeers)).map (·.ipText)

theorem mem_legacyAddresses (hpeer : a.getPeer peer.id = some peer)
    (hrules : PoliciesHaveRules args) {parts : MapParts}
    (hparts : a.mapParts env args peer = .ok parts) :
    x ∈ legacyAddresses parts peer ↔ a.AddressOf (a.InLegacyMap args peer) x := by
  have hmem : ∀ q, q ∈ peer :: (parts.acl.peersToConnect ++ parts.addedPeers ++
      parts.acl.expiredPeers) ↔ q = peer ∨ q ∈ parts.connected := by
    simp only [MapParts.connected, mem_cons, mem_append]
    tauto
  rw [legacyAddresses, mem_map]
  simp only [hmem, mem_connected_iff hpeer hrules hparts]
  refine exists_congr fun q => ?_
  constructor
  · rintro ⟨rfl | ⟨hget, -, hq⟩, hx⟩
    · exact ⟨hpeer, .inl rfl, hx⟩
    · exact ⟨hget, .inr hq, hx⟩
  · rintro ⟨hget, hq, hx⟩
    refine ⟨?_, hx⟩
    by_cases hid : q.id = peer.id
    · rw [hid, hpeer] at hget
      exact .inl (Option.some.inj hget).symm
    · exact .inr ⟨hget, hid, hq.resolve_left hid⟩

theorem mem_componentAddresses :
    x ∈ ((a.relevantKeys args.validatedPeers peer).peerIDs.filterMap a.getPeer).map (·.ipText) ↔
      a.AddressOf (a.NearBy args.validatedPeers peer) x := by
  simp only [mem_map, mem_filterMap, mem_relevantPeerIDs, AddressOf, NearBy]
  constructor
  · rintro ⟨q, ⟨p, hp, hget⟩, rfl⟩
    obtain rfl := (getPeer_eq_some.mp hget).2
    exact ⟨q, hget, hp, rfl⟩
  · rintro ⟨q, hget, hp, rfl⟩
    exact ⟨q, ⟨q.id, hp, hget⟩, rfl⟩

namespace Built

variable {resources : List ResourceKeys} {c : NetworkMapComponents}
  (h : a.Built env args peer resources c)

include h

/-! ### The two configurations -/

/-- The name-server groups are the same set if and only if the target is compared with their
servers the same way. -/
theorem nameServerGroups_iff (hpeer : a.getPeer peer.id = some peer) :
    (c.getPeerNSGroups peer.id (c.getPeerGroups peer.id)).toFinset =
        (nsGroupsOf (peerIsNameserver peer) (a.getPeerGroups peer.id) a.nameServerGroups).toFinset ↔
      a.NameserversAgree peer := by
  have hinfo := h.getPeerInfo_eq_some.mpr ⟨h.hasPeer_target, hpeer⟩
  -- the groups that were filtered out beforehand are not for the target
  have hmem : ∀ nsGroup, nsGroup ∈ c.getPeerNSGroups peer.id (c.getPeerGroups peer.id) ↔
      nsGroup ∈ a.nameServerGroups ∧
        (nsGroup.enabled = true ∧ ∃ g ∈ nsGroup.groups, g ∈ a.getPeerGroups peer.id) ∧
        NetworkMapComponents.peerIsNameserver peer.ipText nsGroup = false := by
    intro nsGroup
    have hns : c.nameServerGroups = a.nameServerGroups.filter fun nsGroup => nsGroup.enabled &&
        nsGroup.groups.any (a.relevantKeys args.validatedPeers peer).groupIDs.contains := by
      rw [h.eq]
      rfl
    rw [NetworkMapComponents.getPeerNSGroups, hinfo]
    rw [mem_nsGroupsOf, hns, mem_filter, Bool.and_eq_true, any_eq_true]
    simp only [h.mem_getPeerGroups]
    constructor
    · exact fun ⟨hmem, hrest⟩ => ⟨hmem.1, hrest⟩
    · rintro ⟨hmem, ⟨hen, g, hg, hpg⟩, hno⟩
      have hlooked : a.LookedUp args.validatedPeers peer.id g :=
        lookedUp_of_mem (Account.mem_getPeerGroups.mp hpg)
      exact ⟨⟨hmem, hen, g, hg, contains_iff_mem.mpr (mem_relevantGroupIDs.mpr hlooked)⟩,
        ⟨hen, g, hg, hpg⟩, hno⟩
  rw [Finset.ext_iff]
  simp only [mem_toFinset, hmem, mem_nsGroupsOf]
  constructor
  · intro heq nsGroup hns hen hg
    have := heq nsGroup
    simp only [hns, hen, hg, true_and] at this
    rw [Bool.eq_iff_iff, ← not_iff_not, Bool.not_eq_true, Bool.not_eq_true]
    exact this
  · intro hagree nsGroup
    refine and_congr_right fun hns => and_congr_right fun ⟨hen, hg⟩ => ?_
    rw [hagree nsGroup hns hen hg]

variable (hpeer : a.getPeer peer.id = some peer) (hrules : PoliciesHaveRules args)
  {parts : MapParts} (hparts : a.mapParts env args peer = .ok parts)
include hpeer hrules hparts

/-- The records that the components path leaves are those that the legacy path leaves, and there
are some. -/
theorem records_iff : (c.allDNSRecords ≠ [] ∧
        c.allDNSRecords = recordsOf (legacyAddresses parts peer) args.peersCustomZone.records) ↔
      a.RecordsAgree args peer := by
  have hrecords : c.allDNSRecords = recordsOf
      (((a.relevantKeys args.validatedPeers peer).peerIDs.filterMap a.getPeer).map (·.ipText))
      args.peersCustomZone.records := by
    rw [h.eq]
    rfl
  rw [hrecords, recordsOf_ne_nil_iff, recordsOf_eq_iff, RecordsAgree]
  simp only [mem_componentAddresses, mem_legacyAddresses hpeer hrules hparts]

/-- **When the two configurations agree**, if both paths return. -/
theorem dnsConfig_agrees_iff : c.dnsConfig.Agrees parts.dns ↔
      (dnsManagementStatus a.disabledManagementGroups (a.getPeerGroups peer.id) = true →
        a.NameserversAgree peer ∧
          (args.peersCustomZone.domain ≠ "" → a.RecordsAgree args peer)) := by
  have hfields : c.disabledManagementGroups = a.disabledManagementGroups ∧
      c.customZoneDomain = args.peersCustomZone.domain ∧
      c.accountZones = filterPeerAppliedZones env args.accountZones (a.getPeerGroups peer.id) := by
    rw [h.eq]
    exact ⟨rfl, rfl, rfl⟩
  have hstatus : dnsManagementStatus c.disabledManagementGroups (c.getPeerGroups peer.id) =
      dnsManagementStatus a.disabledManagementGroups (a.getPeerGroups peer.id) := by
    rw [dnsManagementStatus, hfields.1, h.any_getPeerGroups, dnsManagementStatus]
  have hdns : parts.dns = a.dnsConfig env args peer
      (parts.acl.peersToConnect ++ parts.addedPeers) parts.acl.expiredPeers := by
    obtain ⟨routes, -, rfl⟩ := (mapParts_eq_ok hrules).mp hparts
    rfl
  rw [hdns, NetworkMapComponents.dnsConfig, dnsConfig, h.peerID_eq, hfields.2.1, hfields.2.2]
  rw [hstatus]
  cases hmanaged : dnsManagementStatus a.disabledManagementGroups (a.getPeerGroups peer.id) with
  | false => exact ⟨fun _ hno => absurd hno Bool.false_ne_true, fun _ => .refl _⟩
  | true =>
    rw [if_pos rfl, if_pos rfl, imp_iff_right (Eq.refl true), ← h.nameServerGroups_iff hpeer,
      ← h.records_iff hpeer hrules hparts]
    refine Iff.trans ⟨fun hagrees =>
        ⟨hagrees.nameServerGroups, append_cancel_right hagrees.customZones⟩,
      fun ⟨hns, hzones⟩ => ⟨rfl, hns, congrArg (· ++ _) hzones⟩⟩ (and_congr_right fun _ => ?_)
    -- the peers' zone, if it has a domain
    by_cases hdomain : args.peersCustomZone.domain = ""
    · simp [hdomain]
    · by_cases hnil : c.allDNSRecords = []
      · simp [hdomain, hnil]
      · simp [hdomain, hnil, length_pos_iff, legacyAddresses]

end Built

/-- Both paths return with agreeing configurations, for a validated peer of the account. -/
theorem dnsAgrees_iff (hpeer : a.getPeer peer.id = some peer)
    (hvalid : peer.id ∈ args.validatedPeers) (hrules : PoliciesHaveRules args) :
    a.DnsAgrees env args peer.id ↔ a.DnsSafe env args peer := by
  rw [DnsAgrees, getPeerNetworkMap_eq hpeer hvalid, getPeerNetworkMapFromComponents_eq hpeer hvalid]
  constructor
  · rintro ⟨legacy, components, hlegacy, hcomponents, hagrees⟩
    obtain ⟨parts, hparts, rfl⟩ := map_eq_ok.mp hlegacy
    obtain ⟨parts', hparts', rfl⟩ := map_eq_ok.mp hcomponents
    obtain ⟨resources, c, h, rfl⟩ := built_of_parts hrules hparts'
    obtain ⟨routes, hroutes, -⟩ := (mapParts_eq_ok hrules).mp hparts
    refine ⟨fun g hg => ?_, exists_routes_iff.mp ⟨routes, hroutes⟩,
      (h.dnsConfig_agrees_iff hpeer hrules hparts).mp hagrees⟩
    exact h.groups_exist g (h.mem_groupIDs_of_relevant (mem_relevantGroupIDs.mpr hg))
  · rintro ⟨hgroups, hdomains, hmanaged⟩
    obtain ⟨routes, hroutes⟩ := exists_routes_iff.mpr hdomains
    have hparts := (mapParts_eq_ok hrules).mpr ⟨routes, hroutes, rfl⟩
    obtain ⟨resources, c, h⟩ :=
      exists_built env hrules fun g hg => hgroups g (mem_relevantGroupIDs.mp hg)
    exact ⟨_, _, map_eq_ok.mpr ⟨_, hparts, rfl⟩,
      map_eq_ok.mpr ⟨_, h.componentParts_eq hrules, rfl⟩,
      (h.dnsConfig_agrees_iff hpeer hrules hparts).mpr hmanaged⟩

/-- **The two network maps agree on DNS** exactly on the accounts described.  Both maps are empty
for a target that is unknown or not validated. -/
theorem dns_agreement_iff (env : MapEnv) (a : Account) (zone : CustomZone) (zones : List Zone)
    (validatedPeers : List String) (users : StringMap (List String)) (peerID : String) :
    a.DnsAgrees env (a.ownArgs zone zones validatedPeers users) peerID ↔
      ∀ peer, a.getPeer peerID = some peer → peerID ∈ validatedPeers →
        a.DnsSafe env (a.ownArgs zone zones validatedPeers users) peer := by
  by_cases hvisible : ∃ peer, a.getPeer peerID = some peer ∧ peerID ∈ validatedPeers
  · obtain ⟨peer, hpeer, hvalid⟩ := hvisible
    obtain rfl := (getPeer_eq_some.mp hpeer).2
    rw [dnsAgrees_iff hpeer hvalid (policiesHaveRules_own rfl)]
    constructor
    · intro hsafe q hq _
      rwa [← Option.some.inj (hpeer.symm.trans hq)]
    · exact fun hsafe => hsafe peer hpeer hvalid
  · have hnot : ∀ peer, a.getPeer peerID = some peer → peerID ∉ validatedPeers :=
      fun peer hpeer hvalid => hvisible ⟨peer, hpeer, hvalid⟩
    have hempty : a.DnsAgrees env (a.ownArgs zone zones validatedPeers users) peerID :=
      ⟨_, _, (map_of_not_visible hnot).1, (map_of_not_visible hnot).2, .refl _⟩
    exact ⟨fun _ peer hpeer hvalid => absurd hvalid (hnot peer hpeer), fun _ => hempty⟩

end Account

/-! ### Sample accounts -/

/-- The names of the laptop and the server. -/
def namesZone : CustomZone where
  domain := "netbird.cloud"
  records := [{ name := "laptop.netbird.cloud", rData := "100.64.0.1" },
    { name := "server.netbird.cloud", rData := "100.64.0.2" }]

/-- Both peers of the mesh have their names on either path, so the account is as described. -/
theorem mesh_dns_safe :
    ∀ peer, meshAccount.getPeer "laptop" = some peer → "laptop" ∈ ["laptop", "server"] →
      meshAccount.DnsSafe plainEnv (meshAccount.ownArgs namesZone [] ["laptop", "server"] ∅) peer := by
  refine (Account.dns_agreement_iff plainEnv meshAccount namesZone [] ["laptop", "server"] ∅
    "laptop").mp ?_
  refine exists_both (u := { serviceEnable := true, customZones := [namesZone] }) (·.dnsConfig) rfl
    rfl fun _ _ _ _ hdns hdns' => ?_
  rw [hdns, hdns']
  exact .refl _

def tablet : Peer := { id := "tablet", key := "tablet-key", ip := [100, 64, 0, 4] }

def fileShare : NetworkResource :=
  { id := "files", networkID := "office-net", name := "files", network := ⟨[10, 0, 0, 5], 32⟩ }

/-- The share is reached through the server, by the rules that are given. -/
def shareAccount (rules : List PolicyRule) : Account where
  peers := [laptop, server, tablet]
  groups := [{ id := "laptops", peers := ["laptop"] }, { id := "tablets", peers := ["tablet"] },
    { id := "shares", resources := [{ id := "files", type := .host }] }]
  policies := [{ id := "share", rules := rules }]
  networkRouters := [{ networkID := "office-net", peer := "server" }]
  networkResources := [fileShare]

def laptopsRule : PolicyRule := { id := "laptops", sources := ["laptops"], destinations := ["shares"] }

/-- The laptop is connected to the server, which is a router for the share.  The legacy path gives
it the server's name; the components path has selected the names before it adds the server. -/
theorem router_record_missing :
    (∀ q ∈ (shareAccount [laptopsRule]).peers, q.id ∈ ["laptop", "server", "tablet"]) ∧
      ∃ legacy components,
        (shareAccount [laptopsRule]).getPeerNetworkMap plainEnv ((shareAccount [laptopsRule]).ownArgs
          namesZone [] ["laptop", "server", "tablet"] ∅) "laptop" = .ok legacy ∧
        (shareAccount [laptopsRule]).getPeerNetworkMapFromComponents plainEnv
          ((shareAccount [laptopsRule]).ownArgs namesZone [] ["laptop", "server", "tablet"] ∅)
          "laptop" = .ok components ∧ legacy.peers = [server] ∧ components.peers = [server] ∧
        legacy.dnsConfig.customZones.map (·.records.map (·.rData)) = [["100.64.0.1", "100.64.0.2"]] ∧
        components.dnsConfig.customZones.map (·.records.map (·.rData)) = [["100.64.0.1"]] := by
  refine ⟨by decide, exists_both (u := ([server], [["100.64.0.1", "100.64.0.2"]]))
    (fun m => (m.peers, m.dnsConfig.customZones.map (·.records.map (·.rData)))) rfl rfl
    fun _ _ _ _ heq heq' => ?_⟩
  exact ⟨(Prod.mk.inj heq).1, (Prod.mk.inj heq').1, (Prod.mk.inj heq).2, (Prod.mk.inj heq').2⟩

end Netbird
