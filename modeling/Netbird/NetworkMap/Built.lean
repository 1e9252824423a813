/-
The components as a view of the account.

What network resources add to the components are validated peers and groups of the
account, so they do not disturb what the policies need.  The components come out as a
pruned view: `prunes` says which peers and groups are kept.  They know the posture of
a peer only as far as it was written down, which is as far as it was asked for.

* `Built.prunes` — the components are a pruned view of the account.
-/
import Netbird.NetworkMap.BuilderFacts

namespace Netbird

open NetworkMapComponents List Except Keyed Bool

/-- What the components path finds for the network resources, if no policy lacks rules. -/
def NetworkMapComponents.sync (env : MapEnv) (c : NetworkMapComponents) : ResourceSync Route :=
  c.view.resourceSync c.routersMap c.policiesOf (c.getNetworkResourcesRoutes env) c.peerID
    c.networkResources

namespace Account

variable {a : Account} {env : MapEnv} {args : MapArgs} {peer : Peer} {peerID p : String}
  {validatedPeers : List String}

/-! ### Policies of a resource -/

variable {policy : Policy} {st st' : PolicyLoop}

/-- What one policy of a resource can do to the collected keys. -/
theorem policyStep_cases (h : a.policyStep validatedPeers peerID st policy = .ok st') :
    ∃ rule, policy.rules.head? = some rule ∧ ((st.addSourcePeers = true ∧ st' =
          let kept := a.getPostureValidPeersSaveFailed validatedPeers policy.sourcePostureChecks
            ((a.view validatedPeers).sourcesBy policy rule)
          { st with
            peerIDs := st.peerIDs ++ kept.1
            failed := st.failed ++ kept.2
            groupIDs := st.groupIDs ++ a.policyGroupIDs policy
            mapped := true }) ∨
        (st.addSourcePeers = false ∧ a.isResourceSource peerID policy rule = false ∧ st' = st) ∨
        (st.addSourcePeers = false ∧ a.isResourceSource peerID policy rule = true ∧
          a.passes policy.sourcePostureChecks peerID = false ∧ st' =
          { st with
            failed := st.failed ++
              [((a.validatePostureChecksOnPeerGetFailed policy.sourcePostureChecks peerID).2,
                peerID)] }) ∨
        (st.addSourcePeers = false ∧ a.isResourceSource peerID policy rule = true ∧
          a.passes policy.sourcePostureChecks peerID = true ∧ st' =
          { st with
            addSourcePeers := true
            groupIDs := st.groupIDs ++ a.policyGroupIDs policy
            mapped := true })) := by
  obtain ⟨rule, hrule, h⟩ := bind_eq_ok.mp h
  have hhead : policy.rules.head? = some rule := by
    rw [Checked.index] at hrule
    rw [head?_eq_getElem?]
    rcases h0 : policy.rules[0]? with _ | r
    · simp [h0] at hrule
    · simpa [h0] using hrule
  refine ⟨rule, hhead, ?_⟩
  cases hadd : st.addSourcePeers with
  | true =>
    rw [hadd] at h
    exact .inl ⟨rfl, (ok.inj h).symm⟩
  | false =>
    rw [hadd] at h
    cases hsource : a.isResourceSource peerID policy rule with
    | false =>
      rw [hsource] at h
      exact .inr (.inl ⟨rfl, rfl, (ok.inj h).symm⟩)
    | true =>
      rw [hsource] at h
      change (if (!(a.validatePostureChecksOnPeerGetFailed policy.sourcePostureChecks peerID).1 &&
        (a.validatePostureChecksOnPeerGetFailed policy.sourcePostureChecks peerID).2 != "") = true
        then _ else _) = _ at h
      rw [a.stops_eq] at h
      cases hpass : a.passes policy.sourcePostureChecks peerID
      · rw [hpass] at h
        exact .inr (.inr (.inl ⟨rfl, rfl, rfl, (ok.inj h).symm⟩))
      · rw [hpass] at h
        exact .inr (.inr (.inr ⟨rfl, rfl, rfl, (ok.inj h).symm⟩))

theorem policyStep_total (h : policy.rules ≠ []) :
    ∃ st', a.policyStep validatedPeers peerID st policy = .ok st' := by
  have hindex := Checked.index_eq_ok (length_pos_iff.mpr h)
  rw [policyStep, hindex]
  dsimp only [bind, Except.bind]
  split_ifs <;> exact ⟨_, rfl⟩

/-- Keys collected from network resources are about validated peers and groups of the account,
and the failures are real. -/
structure KeysSound (a : Account) (validatedPeers peerIDs groupIDs : List String)
    (failed : List (String × String)) : Prop where
  peers : ∀ p ∈ peerIDs, (a.getPeer p).isSome = true ∧ p ∈ validatedPeers
  groups : ∀ g ∈ groupIDs, (a.getGroup g).isSome = true
  failed : ∀ e ∈ failed, ∀ peer, a.getPeer e.2 = some peer → a.failsPosture e.1 peer = true

variable {checks : List String}

theorem failed_sound (h : (a.validatePostureChecksOnPeerGetFailed checks p).1 = false) {peer : Peer}
    (hpeer : a.getPeer p = some peer) :
    a.failsPosture (a.validatePostureChecksOnPeerGetFailed checks p).2 peer = true :=
  (failed_of_getFailed hpeer h).2

theorem getPeer_of_valid (h : (a.validatePostureChecksOnPeerGetFailed checks p).1 = true) :
    (a.getPeer p).isSome = true := by
  rw [validatePostureChecksOnPeerGetFailed] at h
  rcases hpeer : a.getPeer p with _ | peer
  · simp [hpeer] at h
  · rfl

variable (hst : a.KeysSound validatedPeers st.peerIDs st.groupIDs st.failed)

include hst

theorem KeysSound.policyStep (h : a.policyStep validatedPeers peerID st policy = .ok st') :
    a.KeysSound validatedPeers st'.peerIDs st'.groupIDs st'.failed := by
  have hgroups : ∀ g ∈ st.groupIDs ++ a.policyGroupIDs policy, (a.getGroup g).isSome = true :=
    forall_mem_append.mpr ⟨hst.groups, fun g hg => (mem_filter.mp hg).2⟩
  obtain ⟨rule, -, ⟨-, rfl⟩ | ⟨-, -, rfl⟩ | ⟨-, -, hpass, rfl⟩ | ⟨-, -, -, rfl⟩⟩ := policyStep_cases h
  · refine ⟨forall_mem_append.mpr ⟨hst.peers, fun p hp => ?_⟩, hgroups,
      forall_mem_append.mpr ⟨hst.failed, forall_mem_map.mpr fun p hp peer hpeer => ?_⟩⟩
    · obtain ⟨hmem, hvalid⟩ := mem_filter.mp hp
      exact ⟨getPeer_of_valid hvalid, by simpa using (mem_filter.mp hmem).2⟩
    · exact failed_sound (by simpa using (mem_filter.mp hp).2) hpeer
  · exact hst
  · refine ⟨hst.peers, hst.groups, forall_mem_append.mpr ⟨hst.failed,
      forall_mem_singleton.mpr fun peer hpeer => failed_sound ?_ hpeer⟩⟩
    rw [passes, or_eq_false_iff] at hpass
    exact hpass.1
  · exact ⟨hst.peers, hgroups, hst.failed⟩

theorem KeysSound.policyLoop {policies : List Policy}
    (h : a.policyLoop validatedPeers peerID st policies = .ok st') :
    a.KeysSound validatedPeers st'.peerIDs st'.groupIDs st'.failed :=
  foldlM_invariant (P := fun st : PolicyLoop =>
    a.KeysSound validatedPeers st.peerIDs st.groupIDs st.failed) h hst
    fun _ _ _ _ hstep hst => hst.policyStep hstep

omit hst

theorem resourceKeys_sound {resource : NetworkResource} {keys : ResourceKeys}
    (h : a.resourceKeys args peerID resource = .ok keys) :
    a.KeysSound args.validatedPeers keys.peerIDs keys.groupIDs keys.failed := by
  rw [resourceKeys] at h
  split_ifs at h
  · obtain rfl := ok.inj h
    exact ⟨by simp, by simp, by simp⟩
  · rcases hpolicies : args.resourcePolicies.lookup resource.id with _ | policies
    · rw [hpolicies] at h
      obtain rfl := ok.inj h
      exact ⟨by simp, by simp, by simp⟩
    · rw [hpolicies] at h
      obtain ⟨loop, hloop, h⟩ := bind_eq_ok.mp h
      obtain rfl := ok.inj h
      have hsound := KeysSound.policyLoop ⟨by simp, by simp, by simp⟩ hloop
      refine ⟨forall_mem_append.mpr ⟨hsound.peers, fun p hp => ?_⟩, hsound.groups, hsound.failed⟩
      obtain ⟨hmem, hvalid⟩ := mem_filter.mp hp
      exact ⟨(mem_filter.mp hmem).2, by simpa using hvalid⟩

/-! ### The components -/

/-- The components were built for the peer, with these keys from the network resources. -/
structure Built (a : Account) (env : MapEnv) (args : MapArgs) (peer : Peer)
    (resources : List ResourceKeys) (c : NetworkMapComponents) : Prop where
  keys_eq : a.networkResources.mapM (a.resourceKeys args peer.id) = .ok resources
  groups_exist : ∀ g ∈ a.componentGroupIDs args peer resources, (a.getGroup g).isSome = true
  eq : c = a.componentsFrom env args peer resources
    (Keyed.ofKeys (fun id => (a.getGroup id).bind
      (Group.prune (a.componentPeerIDs args peer resources).contains))
      (a.componentGroupIDs args peer resources))

theorem componentsOf_eq_ok {c : NetworkMapComponents} :
    a.componentsOf env args peer = .ok c ↔ ∃ resources, a.Built env args peer resources c := by
  rw [componentsOf, bind_eq_ok]
  refine exists_congr fun resources => ?_
  rw [filterGroupPeers]
  split_ifs with hall
  · have hgroups : ∀ g ∈ a.componentGroupIDs args peer resources, (a.getGroup g).isSome = true := by
      simpa using hall
    constructor
    · rintro ⟨hres, h⟩
      exact ⟨hres, hgroups, (ok.inj h).symm⟩
    · rintro ⟨hres, -, rfl⟩
      exact ⟨hres, rfl⟩
  · constructor
    · rintro ⟨-, h⟩
      cases h
    · rintro ⟨-, hgroups, -⟩
      exact absurd (by simpa using hgroups) hall

/-- What is collected for the target, with what the network resources contribute. -/
def Collected {α : Type} (a : Account) (args : MapArgs) (peer : Peer)
    (keys : List ResourceKeys → List α) (x : α) : Prop :=
  ∃ resources, a.networkResources.mapM (a.resourceKeys args peer.id) = .ok resources ∧
    x ∈ keys resources

/-- The components have an entry for the peer. -/
def Kept (a : Account) (args : MapArgs) (peer : Peer) : String → Prop :=
  a.Collected args peer (a.componentPeerIDs args peer)

/-- The components have what is left of the group. -/
def KeptGroup (a : Account) (args : MapArgs) (peer : Peer) : String → Prop :=
  a.Collected args peer (a.componentGroupIDs args peer)

/-- The failure of a check by a peer is written down. -/
def KeptFailure (a : Account) (args : MapArgs) (peer : Peer) : String × String → Prop :=
  a.Collected args peer fun resources =>
    (a.relevantKeys args.validatedPeers peer).failed ++ resources.flatMap (·.failed)

/-- Every policy that is given for a resource has a rule. -/
def PoliciesHaveRules (args : MapArgs) : Prop :=
  ∀ id policies, args.resourcePolicies.lookup id = some policies → ∀ policy ∈ policies, policy.rules ≠ []

theorem resourceKeys_total (hrules : PoliciesHaveRules args) (resource : NetworkResource) :
    ∃ keys, a.resourceKeys args peerID resource = .ok keys := by
  rw [resourceKeys]
  split_ifs
  · exact ⟨_, rfl⟩
  · rcases hpolicies : args.resourcePolicies.lookup resource.id with _ | policies
    · exact ⟨_, rfl⟩
    · obtain ⟨loop, hloop⟩ := foldlM_total (fun policy hpolicy st =>
        policyStep_total (hrules resource.id policies hpolicies policy hpolicy))
        { addSourcePeers := ((args.routers.ofNetwork resource.networkID).lookup peerID).isSome }
      exact ⟨_, bind_eq_ok.mpr ⟨loop, hloop, rfl⟩⟩

/-- **The components are built** unless a group that the policies or routes need is missing. -/
theorem exists_built (env : MapEnv) (hrules : PoliciesHaveRules args)
    (hgroups : ∀ g ∈ (a.relevantKeys args.validatedPeers peer).groupIDs,
      (a.getGroup g).isSome = true) : ∃ resources c, a.Built env args peer resources c := by
  obtain ⟨resources, hres⟩ : ∃ r, a.networkResources.mapM (a.resourceKeys args peer.id) = .ok r :=
    mapM_total fun resource _ => resourceKeys_total hrules resource
  refine ⟨resources, _, hres, forall_mem_append.mpr ⟨hgroups, fun g hg => ?_⟩, rfl⟩
  obtain ⟨keys, hkeys, hg⟩ := mem_flatMap.mp hg
  obtain ⟨resource, -, hres⟩ := mem_of_mapM hres hkeys
  exact (resourceKeys_sound hres).groups g hg

theorem policiesHaveRules_own (h : args.resourcePolicies = a.getResourcePoliciesMap) :
    PoliciesHaveRules args := by
  intro id policies hlookup policy hpolicy
  rw [h, getResourcePoliciesMap, lookup_ofKeys] at hlookup
  split_ifs at hlookup
  obtain rfl := Option.some.inj hlookup
  obtain ⟨policy', -, hentry⟩ := mem_flatMap.mp hpolicy
  obtain ⟨rfl, hany⟩ := mem_policyEntries.mp hentry
  rintro hnil
  simp [hnil] at hany

namespace Built

variable {resources : List ResourceKeys} {c : NetworkMapComponents}
  (h : a.Built env args peer resources c)

include h

theorem keysSound {keys : ResourceKeys} (hkeys : keys ∈ resources) :
    a.KeysSound args.validatedPeers keys.peerIDs keys.groupIDs keys.failed := by
  obtain ⟨resource, -, hres⟩ := mem_of_mapM h.keys_eq hkeys
  exact resourceKeys_sound hres

theorem hasPeer_iff : c.hasPeer p = true ↔ p ∈ a.componentPeerIDs args peer resources := by
  rw [h.eq, hasPeer, componentsFrom, lookup_ofKeys]
  split_ifs with hp <;> simp [hp]

theorem getPeerInfo_eq (p : String) :
    c.getPeerInfo p = if c.hasPeer p then a.getPeer p else none := by
  by_cases hp : p ∈ a.componentPeerIDs args peer resources
  · rw [if_pos (h.hasPeer_iff.mpr hp), h.eq, getPeerInfo, componentsFrom,
      lookup_ofKeys, if_pos hp]
    rfl
  · rw [if_neg (mt h.hasPeer_iff.mp hp), h.eq, getPeerInfo, componentsFrom,
      lookup_ofKeys, if_neg hp]
    rfl

theorem getPeerInfo_eq_some {q : Peer} :
    c.getPeerInfo p = some q ↔ c.hasPeer p = true ∧ a.getPeer p = some q := by
  rw [h.getPeerInfo_eq]
  cases c.hasPeer p <;> simp

theorem collected_iff {α : Type} {keys : List ResourceKeys → List α} {x : α} :
    a.Collected args peer keys x ↔ x ∈ keys resources := by
  constructor
  · rintro ⟨resources', hkeys, hx⟩
    rwa [← ok.inj (hkeys.symm.trans h.keys_eq)]
  · exact fun hx => ⟨resources, h.keys_eq, hx⟩

theorem kept_iff : a.Kept args peer p ↔ c.hasPeer p = true :=
  h.collected_iff.trans h.hasPeer_iff.symm

/-- **The components are a pruned view of the account.** -/
theorem prunes : (a.view args.validatedPeers).Prunes c.view c.hasPeer
      (a.componentGroupIDs args peer resources) where
  peer := h.getPeerInfo_eq
  group g := by
    have hkeep : (a.componentPeerIDs args peer resources).contains = c.hasPeer := by
      funext p
      rw [Bool.eq_iff_iff, h.hasPeer_iff, contains_iff_mem]
    have hgroups : c.groups = ofKeys (fun id => (a.getGroup id).bind
        (Group.prune (a.componentPeerIDs args peer resources).contains))
        (a.componentGroupIDs args peer resources) := by
      rw [h.eq]
      rfl
    change c.groups.lookup g = _
    rw [hgroups, lookup_ofKeys, hkeep]
    rfl
  valid _ := rfl

/-- An entry is the target, a peer across from it, or a validated peer of the account. -/
theorem hasPeer_cases (hp : c.hasPeer p = true) :
    p = peer.id ∨ a.Across args.validatedPeers peer.id p ∨
      ((a.getPeer p).isSome = true ∧ p ∈ args.validatedPeers) := by
  rcases mem_append.mp (h.hasPeer_iff.mp hp) with hp | hp
  · rcases mem_relevantPeerIDs.mp hp with hp | hp
    · exact .inl hp
    · exact .inr (.inl hp)
  · obtain ⟨keys, hkeys, hp⟩ := mem_flatMap.mp hp
    exact .inr (.inr ((h.keysSound hkeys).peers p hp))

theorem hasPeer_target : c.hasPeer peer.id = true :=
  h.hasPeer_iff.mpr (mem_append_left _ (mem_relevantPeerIDs.mpr (.inl rfl)))

theorem hasPeer_of_across (hp : a.Across args.validatedPeers peer.id p) : c.hasPeer p = true :=
  h.hasPeer_iff.mpr (mem_append_left _ (mem_relevantPeerIDs.mpr (.inr hp)))

@[simp] theorem peerID_eq : c.peerID = peer.id := by
  rw [h.eq]
  rfl

theorem policiesOf_eq (id : String) : c.policiesOf id =
      if id ∈ resources.flatMap (·.mapped) then (args.resourcePolicies.lookup id).getD [] else [] := by
  rw [policiesOf, h.eq, componentsFrom, lookup_ofKeys]
  split_ifs <;> rfl

/-- **Nothing else can fail**: the map is computed from the components that were built. -/
theorem componentParts_eq (hrules : PoliciesHaveRules args) :
    a.componentParts env args peer = .ok (c.partsOf env (c.sync env)) := by
  have hsync : c.getNetworkResourcesRoutesToSync env c.peerID = .ok (c.sync env) := by
    refine c.view.networkResourcesRoutesToSync_eq fun resource _ policy hpolicy => ?_
    rw [h.policiesOf_eq] at hpolicy
    split_ifs at hpolicy
    · rcases hlookup : args.resourcePolicies.lookup resource.id with _ | policies
      · simp [hlookup] at hpolicy
      · rw [hlookup] at hpolicy
        exact hrules resource.id policies hlookup policy hpolicy
    · cases hpolicy
  rw [componentParts, componentsOf_eq_ok.mpr ⟨resources, h⟩]
  change c.mapParts env = _
  rw [NetworkMapComponents.mapParts, hsync]
  rfl

/-! #### Posture -/

theorem postureFailedPeers_eq :
    c.postureFailedPeers = filterPostureFailedPeers c.policies c.resourcePoliciesMap
      (a.componentPeerIDs args peer resources).contains
      ((a.relevantKeys args.validatedPeers peer).failed ++ resources.flatMap (·.failed)) := by
  rw [h.eq]
  rfl

theorem failed_real {e : String × String}
    (he : e ∈ c.postureFailedPeers) {failing : Peer} (hpeer : a.getPeer e.2 = some failing) :
    a.failsPosture e.1 failing = true := by
  rw [h.postureFailedPeers_eq] at he
  rcases mem_append.mp (mem_filter.mp he).1 with he | he
  · obtain ⟨pr, -, side, he⟩ := mem_relevantFailed.mp he
    obtain ⟨p, -, -, hpass, rfl⟩ := sideScan_sound he
    refine failed_sound ?_ hpeer
    rw [passes, or_eq_false_iff] at hpass
    exact hpass.1
  · obtain ⟨keys, hkeys, he⟩ := mem_flatMap.mp he
    exact (h.keysSound hkeys).failed e he failing hpeer

theorem posture_of_valid
    (hp : c.hasPeer p = true) (hvalid : a.validatePostureChecksOnPeer checks p = true) :
    c.validatePostureChecksOnPeer checks p = true := by
  rw [validatePostureChecksOnPeer] at hvalid
  rcases hpeer : a.getPeer p with _ | passing
  · simp [hpeer] at hvalid
  · rw [hpeer] at hvalid
    rw [NetworkMapComponents.validatePostureChecksOnPeer, hp, Bool.true_and, all_eq_true]
    intro id hid
    rw [not_eq_true', ← not_eq_true, contains_iff_mem]
    intro hmem
    have hfails := h.failed_real hmem hpeer
    have hpasses := all_eq_true.mp hvalid id hid
    rw [hfails] at hpasses
    cases hpasses

/-- The posture of a peer that is kept is what was written down of it. -/
theorem posture_iff (hp : c.hasPeer p = true) (hpolicy : policy ∈ c.policies) :
    c.validatePostureChecksOnPeer policy.sourcePostureChecks p = true ↔
      ∀ id ∈ policy.sourcePostureChecks, ¬ a.KeptFailure args peer (id, p) := by
  rw [NetworkMapComponents.validatePostureChecksOnPeer, hp, Bool.true_and, all_eq_true]
  refine forall₂_congr fun id hid => ?_
  rw [not_eq_true', ← not_eq_true, contains_iff_mem, h.postureFailedPeers_eq, KeptFailure,
    h.collected_iff]
  refine not_congr (mem_filter.trans (and_iff_left ?_))
  rw [and_eq_true, contains_iff_mem, contains_iff_mem]
  exact ⟨mem_flatMap.mpr ⟨policy, mem_append_left _ hpolicy, hid⟩, h.hasPeer_iff.mp hp⟩

end Built

/-! ### Maps and their parts -/

/-- Neither path computes anything for a peer that is unknown or not validated. -/
theorem map_of_not_visible (h : ∀ peer, a.getPeer peerID = some peer → peerID ∉ args.validatedPeers) :
    a.getPeerNetworkMap env args peerID = .ok { network := a.network } ∧
      a.getPeerNetworkMapFromComponents env args peerID = .ok { network := a.network } := by
  rw [getPeerNetworkMapFromComponents, getPeerNetworkMapComponents, getPeerNetworkMap]
  rcases hpeer : a.getPeer peerID with _ | peer
  · exact ⟨rfl, rfl⟩
  · dsimp only
    rw [if_pos (h peer hpeer), if_pos (h peer hpeer)]
    exact ⟨rfl, rfl⟩

theorem getPeerNetworkMap_eq (hpeer : a.getPeer peer.id = some peer)
    (hvalid : peer.id ∈ args.validatedPeers) : a.getPeerNetworkMap env args peer.id =
      (a.mapParts env args peer).map (·.toNetworkMap a.network) := by
  rw [getPeerNetworkMap, hpeer]
  dsimp only
  rw [if_neg (not_not.mpr hvalid)]
  cases a.mapParts env args peer <;> rfl

theorem built_of_parts {parts : MapParts} (hrules : PoliciesHaveRules args)
    (hparts : a.componentParts env args peer = .ok parts) :
    ∃ resources c, a.Built env args peer resources c ∧ c.partsOf env (c.sync env) = parts := by
  obtain ⟨c, hc, -⟩ := bind_eq_ok.mp hparts
  obtain ⟨resources, h⟩ := componentsOf_eq_ok.mp hc
  exact ⟨resources, c, h, ok.inj ((h.componentParts_eq hrules).symm.trans hparts)⟩

theorem getPeerNetworkMapFromComponents_eq (hpeer : a.getPeer peer.id = some peer)
    (hvalid : peer.id ∈ args.validatedPeers) : a.getPeerNetworkMapFromComponents env args peer.id =
      (a.componentParts env args peer).map (·.toNetworkMap a.network) := by
  rw [getPeerNetworkMapFromComponents, getPeerNetworkMapComponents, hpeer, componentParts]
  dsimp only
  rw [if_neg (not_not.mpr hvalid)]
  rcases hc : a.componentsOf env args peer with e | c
  · rfl
  · obtain ⟨resources, h⟩ := componentsOf_eq_ok.mp hc
    have hnet : c.network = a.network := by
      rw [h.eq]
      rfl
    change c.calculate env = (c.mapParts env).map _
    rw [calculate, hnet]
    cases c.mapParts env <;> rfl

end Account

end Netbird
