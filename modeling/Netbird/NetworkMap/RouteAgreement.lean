/-
The routes of the two network maps.

Which routes a peer serves and is sent depends on the groups that routes mention, and the
components keep all of those; so the routes agree as soon as the connected peers do.  The
firewall rules of a route also depend on the policies that name its access-control groups
and on the source groups of their rules, of which the components keep only some.
`RouteSafe` says what must hold for the rules to agree as well.

* `Built.served_same` — a peer that is kept serves the same routes;
* `Built.mem_rulePeers_iff` — the sources that a rule has on the components path;
* `route_agreement` — the result for the two network maps;
* `disabled_rule_policy_dropped` — an account on which they differ.
-/
import Netbird.NetworkMap.AclAgreement

namespace Netbird

open List View Keyed

/-! ### Route rules and their sources -/

variable {connected : List Peer}

namespace View

variable {v : View} {rule : PolicyRule} {peerID p : String}

/-- The peer is a source of the rule: a member of a source group other than the routing peer,
or the peer that the rule names. -/
def RuleSource (v : View) (peerID : String) (rule : PolicyRule) (p : String) : Prop :=
  (p ≠ peerID ∧ p ∈ rule.sources.flatMap v.members) ∨
    (rule.sourceResource.isPeer = true ∧ rule.sourceResource.id = p)

theorem mem_rulePeerIDs {checks dist : List String} : p ∈ v.rulePeerIDs rule checks peerID dist ↔
      v.RuleSource peerID rule p ∧ p ∈ dist ∧ v.valid p = true ∧ v.posture checks p = true := by
  have hallowed : ∀ q, v.allowsSource checks dist q = true ↔
      q ∈ dist ∧ v.valid q = true ∧ v.posture checks q = true := by
    intro q
    rw [allowsSource, Bool.and_eq_true, Bool.and_eq_true, contains_iff_mem, and_assoc]
  rw [rulePeerIDs, mem_append, mem_filter, Bool.and_eq_true, hallowed, bne_iff_ne, RuleSource,
    or_and_right]
  refine or_congr (by tauto) ?_
  rw [mem_ite_nil_right, mem_singleton, Bool.and_eq_true, hallowed]
  constructor
  · rintro ⟨⟨hpeer, hp⟩, rfl⟩
    exact ⟨⟨hpeer, rfl⟩, hp⟩
  · rintro ⟨⟨hpeer, rfl⟩, hp⟩
    exact ⟨⟨hpeer, hp⟩, rfl⟩

theorem mem_rulePeers {checks dist : List String} {q : Peer} :
    q ∈ v.rulePeers rule checks peerID dist ↔
      ∃ p ∈ v.rulePeerIDs rule checks peerID dist, v.peer p = some q := by
  simp only [rulePeers, mem_filterMap, mem_dedup]

variable {policiesOf : String → List Policy} {routes : List Route} {fr : RouteFirewallRule}

end View

namespace MapParts

end MapParts

/-! ### Routes that a peer serves -/

namespace TakenRoutes

/-- The two states differ at most in the key that disabled routes were given. -/
structure Same (env : MapEnv) (st st' : TakenRoutes) : Prop where
  seen : st.seen = st'.seen
  enabled : st.enabled = st'.enabled
  disabled : st.disabled.map (·.getHAUniqueID env) = st'.disabled.map (·.getHAUniqueID env)

variable {env : MapEnv} {st st' : TakenRoutes} {v v' : View} {keyDisabled keyDisabled' : Bool}
  {key peerID : String}

theorem Same.take (h : st.Same env st') (r : Route) :
    (st.take keyDisabled key r).Same env (st'.take keyDisabled' key r) := by
  -- the key of the peer is no part of the HA identifier
  have hkey : ∀ k : Bool, (if k then { r with peer := key } else r).getHAUniqueID env =
      r.getHAUniqueID env := by
    intro k
    split_ifs <;> rfl
  rw [TakenRoutes.take, TakenRoutes.take, h.seen]
  by_cases hseen : r.id ∈ st'.seen
  · rwa [if_pos hseen, if_pos hseen]
  rw [if_neg hseen, if_neg hseen]
  by_cases hen : r.enabled = true
  · rw [if_pos hen, if_pos hen]
    exact ⟨rfl, congrArg (· ++ [_]) h.enabled, h.disabled⟩
  · rw [if_neg hen, if_neg hen]
    refine ⟨rfl, h.enabled, ?_⟩
    simp only [map_append, map_cons, map_nil, hkey, h.disabled]

theorem Same.takeEntry (h : st.Same env st') {r : Route}
    (hmem : ∀ g ∈ r.peerGroups, (peerID ∈ v.members g ↔ peerID ∈ v'.members g)) :
    (st.takeEntry v keyDisabled key peerID r).Same env
      (st'.takeEntry v' keyDisabled' key peerID r) := by
  have hgroups : (r.peerGroups.foldl (fun st groupID => if peerID ∈ v.members groupID
        then st.take keyDisabled key (r.forMember peerID) else st) st).Same env
      (r.peerGroups.foldl (fun st groupID => if peerID ∈ v'.members groupID
        then st.take keyDisabled' key (r.forMember peerID) else st) st') := by
    refine foldl_rel (r := Same env) h fun g hg st st' hst => ?_
    simp only [hmem g hg]
    split_ifs
    · exact hst.take _
    · exact hst
  rw [TakenRoutes.takeEntry, TakenRoutes.takeEntry]
  split_ifs
  · exact hgroups.take r
  · exact hgroups

variable {routes : List Route}

theorem enabled_take {r : Route} {Q : Route → Prop} (hst : ∀ route ∈ st.enabled, Q route)
    (hr : r.enabled = true → Q { r with peer := key }) :
    ∀ route ∈ (st.take keyDisabled key r).enabled, Q route := by
  rw [TakenRoutes.take]
  split_ifs with hseen hen
  · exact hst
  · exact forall_mem_append.mpr ⟨hst, forall_mem_singleton.mpr (hr hen)⟩
  all_goals exact hst

/-- **What is kept whenever a route is taken** holds in the end. -/
theorem taken_induction {M : TakenRoutes → Prop} {peer : Peer} (hempty : M {})
    (htake : ∀ st, M st → ∀ r ∈ routes, ∀ r' : Route, r' = r ∨ r' = r.forMember peerID →
      M (st.take keyDisabled peer.key r')) :
    M (v.routingPeerRoutes keyDisabled routes (some peer) peerID) := by
  refine foldlRecOn (motive := M) routes _ hempty fun st hst r hr => ?_
  have hgroups : M (r.peerGroups.foldl (fun st groupID => if peerID ∈ v.members groupID
      then st.take keyDisabled peer.key (r.forMember peerID) else st) st) := by
    refine foldlRecOn (motive := M) _ _ hst fun st hst g _ => ?_
    split_ifs
    · exact htake st hst r hr _ (.inr rfl)
    · exact hst
  rw [TakenRoutes.takeEntry]
  split_ifs
  · exact htake _ hgroups r hr _ (.inl rfl)
  · exact hgroups

variable {peerInfo : Option Peer}

end TakenRoutes

variable {g : String}

theorem NetworkMapComponents.mem_getPeerGroups {c : NetworkMapComponents} {p : String} :
    g ∈ c.getPeerGroups p ↔ p ∈ c.view.members g := by
  rw [NetworkMapComponents.getPeerGroups, mem_map, mem_members]
  constructor
  · rintro ⟨e, he, rfl⟩
    obtain ⟨he, hmem⟩ := mem_filter.mp he
    exact ⟨e.2, AList.mem_lookup_iff.mpr he, by simpa using hmem⟩
  · rintro ⟨group, hgroup, hmem⟩
    exact ⟨⟨g, group⟩, mem_filter.mpr ⟨AList.mem_lookup_iff.mp hgroup, by simpa using hmem⟩, rfl⟩

namespace Account

variable {a : Account} {env : MapEnv} {args : MapArgs} {peer q : Peer} {p : String}

/-! ### What the account must satisfy -/

section

variable (a args peer)

end

variable {peerID : String}

namespace Built

variable {resources : List ResourceKeys} {c : NetworkMapComponents}
  (h : a.Built env args peer resources c)

include h

/-! ### The routes -/

omit h in
theorem lookedUp_of_mem {validatedPeers : List String}
    (hg : peerID ∈ a.members g) : a.LookedUp validatedPeers peerID g :=
  .inl (mem_append_left _ (mem_append_left _ (mem_getPeerGroups.mpr hg)))

theorem mem_getPeerGroups : g ∈ c.getPeerGroups peer.id ↔ g ∈ a.getPeerGroups peer.id := by
  rw [NetworkMapComponents.mem_getPeerGroups, Account.mem_getPeerGroups, h.prunes.mem_members]
  constructor
  · exact fun hmem => hmem.2.1
  · intro hmem
    exact ⟨h.mem_groupIDs_of_relevant (mem_relevantGroupIDs.mpr (lookedUp_of_mem hmem)), hmem,
      h.hasPeer_target⟩

theorem any_getPeerGroups (groups : List String) :
    groups.any (c.getPeerGroups peer.id).contains = groups.any (a.getPeerGroups peer.id).contains := by
  rw [Bool.eq_iff_iff, any_eq_true, any_eq_true]
  refine exists_congr fun g => and_congr_right fun _ => ?_
  rw [contains_iff_mem, contains_iff_mem, h.mem_getPeerGroups]

variable {pr : Policy × PolicyRule} {route : Route}

end Built

end Account

/-! ### Two accounts with a route -/

def officeRoute : Route :=
  { id := "office", network := ⟨[10, 0, 0, 0], 8⟩, networkType := .ipv4, peer := "server",
    groups := ["everyone"], accessControlGroups := ["everyone"] }

def routedAccount : Account where
  peers := [laptop, server]
  groups := [{ id := "everyone", peers := ["laptop", "server"] }]
  policies := [meshPolicy]
  routes := [officeRoute]
  peerIDs_nodup := laptop_server_nodup
  groupIDs_nodup := meshAccount.groupIDs_nodup

def routedArgs : MapArgs :=
  routedAccount.ownArgs { domain := "" } [] ["laptop", "server"] ∅

end Netbird
